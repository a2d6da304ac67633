import UserFederation.Proofs.Convergence
import UserFederation.Proofs.Retry

/-! Interrupted runs. Running a declaration again until a run succeeds leads to the same mappers as a
run that was not interrupted, unless the declaration has no list of mappers and the run was
interrupted after the federation had been created (`retried_settings_iff`): the new run updates it,
and an update without a list leaves the mappers alone that the creation was about to delete. -/

namespace UserFederation.Server

open Component Dialogue Mapper Reconcile

variable {supply : Supply} {s s₁ u v w : Server} {d : Declaration} {f : String} {e : Stored}
  {mode : RunMode} {o : Outcome} {ds : List Component} {fault : Fault} {n : Nat}
  {past rest : List Action} {a : Action}

/-- A declaration is run again until a run succeeds. -/
inductive Retried (supply : Supply) (d : Declaration) (mode : RunMode) : Server → Server → Prop
  | done {v w : Server} {o : Outcome}
    (run : (reconcile d mode).run (answer supply) v = (.ok o, w)) : Retried supply d mode v w
  | again {v v' w : Server} {e : Failure}
    (run : (reconcile d mode).run (answer supply) v = (.error e, v'))
    (rest : Retried supply d mode v' w) : Retried supply d mode v w

/-- Runs that fail change nothing, so it is the one that succeeds that resumes the old one. -/
theorem Broken.retried (h : Broken supply d f e ds s₁ v u past rest) (present : d.state = .present)
    (type : d.id.isSome ∨ d.providerType = federationType) (apply : mode.dryRun = false)
    (retried : Retried supply d mode v w) : Resumed d f v w := by
  induction retried with
  | done run =>
    rcases h.retry present type apply run with ⟨e, failed, -⟩ | ⟨o, -, resumed⟩
    · cases failed
    · exact resumed
  | again run _ ih =>
    rcases h.retry present type apply run with ⟨e, -, rfl⟩ | ⟨o, succeeded, -⟩
    · exact ih h
    · cases succeeded

/-- The mappers that are declared end up with the same settings. -/
theorem Broken.settings_perm (h : Broken supply d f e ds s₁ v u past rest)
    (reached : Reached v w f d.realm d.prune ds) (keyed : w.Keyed) :
    ((w.children f d.realm).map settings).Perm ((u.children f d.realm).map settings) := by
  have o := h.begun.orderly
  obtain ⟨ids, carried⟩ := h.done.carried o
  obtain ⟨ids', carried'⟩ := h.whole.carried o
  have toward := h.serves.toward o h.byName h.spares rfl carried
  have through := toward.reached h.byName.type reached
  have straight := h.serves.reached o h.byName h.spares carried'
  exact through.settings_perm straight h.byName o.keyed keyed carried'.orderly.keyed

/-- If no mappers are declared, the plan only deletes, and what it had left to delete is still
there. -/
theorem Broken.left_there (h : Broken supply d f e [] s₁ v u past (a :: rest)) :
    (∃ k p, v.mapper? f d.realm k = some p) ∧ u.children f d.realm = [] := by
  have o := h.begun.orderly
  have member : a ∈ past ++ a :: rest := List.mem_append_right _ List.mem_cons_self
  obtain ⟨i, rfl, there, pruned⟩ : ∃ i, a = .delete i ∧ (s₁.mapper? f d.realm i).isSome ∧
      d.prune = true := by
    rcases h.serves.actions a member with ⟨m, hm, -⟩ | ⟨i, rfl, there, -, pruned | ⟨m, hm, -⟩⟩
    · cases hm
    · exact ⟨i, rfl, there, pruned⟩
    · cases hm
  obtain ⟨p, hp⟩ := Option.isSome_iff_exists.mp there
  constructor
  · obtain ⟨ids, carried⟩ := h.done.carried o
    refine ⟨i, p, ((carried.kept_or_acted i).resolve_right ?_).trans hp⟩
    rintro ⟨b, hb, ⟨given, -⟩ | ⟨-, new⟩, -⟩
    · have apart := (List.pairwise_append.mp h.serves.apart).2.2 b (List.of_mem_zip hb).1
        (.delete i) List.mem_cons_self
      cases given.symm.trans (apart given).1
    · exact new (o.past_of_mapper? hp)
  · obtain ⟨ids, carried⟩ := h.whole.carried o
    have reached := h.serves.reached o h.byName h.spares carried
    obtain ⟨xs, shaped, listed⟩ := reached.listing h.byName o.keyed carried.orderly.keyed
    cases shaped
    rw [pruned] at listed
    exact List.perm_nil.mp listed

/-- What resumes a run that was interrupted comes to the settings that the run would have left if a
list of mappers is declared, and only then. -/
theorem Broken.settings_iff (h : Broken supply d f e ds s₁ v u past (a :: rest))
    (resumed : Resumed d f v w) (keyed : w.Keyed) :
    ((w.children f d.realm).map settings).Perm ((u.children f d.realm).map settings) ↔
      d.mappers.isSome := by
  have declared : d.mapperComponents.isSome = d.mappers.isSome := Option.isSome_map ..
  rw [← declared]
  unfold Resumed at resumed
  cases hds : d.mapperComponents with
  | some ds' =>
    rw [hds] at resumed
    cases h.mapperComponents_eq hds
    exact iff_of_true (h.settings_perm resumed keyed) rfl
  | none =>
    rw [hds] at resumed
    have bare : ds = [] := by rw [← h.declared, hds, Option.getD_none]
    subst bare
    obtain ⟨⟨k, p, hp⟩, empty⟩ := h.left_there
    refine iff_of_false (fun perm => ?_) (by simp)
    have shown : redact p ∈ w.children f d.realm :=
      mem_children.mpr ⟨k, p, (resumed k).trans hp, rfl⟩
    rw [empty, List.map_nil, List.perm_nil, List.map_eq_nil_iff] at perm
    rw [perm] at shown
    cases shown

/-- Runs lead from a reachable server to another one. -/
theorem Retried.reachable (retried : Retried supply d mode v w) (h : Reachable supply v) :
    Reachable supply w := by
  have led := h.run (reconcile d mode)
  induction retried with
  | done run => rwa [run] at led
  | again run _ ih =>
    rw [run] at led
    exact ih led (led.run _)

/-- After an interrupted run, a run that finds the federation succeeds; and once a run has succeeded,
the mappers are the same as the run would have left them without the interruption, if a list of
mappers is declared or nothing had been done yet, and only then. -/
theorem retried_settings_iff (h : Resumable supply s d) (subject : Subject supply s d f)
    (apply : mode.dryRun = false) (run : (reconcile d mode).run (answer supply) s = (.ok o, u))
    (there : (u.get f d.realm).isSome) {r : Except Failure Outcome}
    (interrupted : (reconcile d mode).run ((answer supply).failingAt fault) (some n, s) =
      (r, none, v)) :
    (n = 0 ∨ (∃ e, v.Found d f e) →
      ∃ o w, (reconcile d mode).run (answer supply) v = (.ok o, w)) ∧
    ∀ w, Retried supply d mode v w →
      (((w.children f d.realm).map settings).Perm ((u.children f d.realm).map settings) ↔
        d.mappers.isSome ∨ n = 0) := by
  rcases h.broken subject apply run there interrupted with
    ⟨rfl, rfl⟩ | ⟨positive, e, ds, s₁, past, a, rest, broken⟩
  · refine ⟨fun _ => ⟨o, u, run⟩, fun w retried => iff_of_true ?_ (.inr rfl)⟩
    cases retried with
    | done run' =>
      cases run.symm.trans run'
      exact .refl _
    | again run' => cases run.symm.trans run'
  · refine ⟨fun found => ?_, fun w retried => ?_⟩
    · obtain ⟨e', found⟩ := found.resolve_left (Nat.ne_of_gt positive)
      obtain ⟨-, rfl⟩ := broken.begun_again.found_eq h.type found
      exact broken.succeeds h.valid h.present apply found
    · have reachable : Reachable supply v := by
        have led : Reachable supply
            ((reconcile d mode).run ((answer supply).failingAt fault) (some n, s)).2.2 :=
          h.reachable.run_failingAt (reconcile d mode) (some n)
        rwa [interrupted] at led
      have resumed := broken.retried h.present h.type apply retried
      have settled := broken.settings_iff resumed (retried.reachable reachable).keyed
      exact settled.trans (or_iff_left (Nat.ne_of_gt positive)).symm

namespace Sample

theorem resumable_withMail : Resumable tally withoutDefaults withMail where
  reachable := .withoutDefaults
  unignored := rfl
  unarmed := rfl
  defaults _ _ h := by cases h
  fresh := convergent_withMail.fresh
  valid := rfl
  present := rfl
  type := .inl rfl
  mappers ds h m hm := by
    cases h
    cases List.mem_singleton.mp hm
    exact ⟨rfl, rfl⟩
  names ds h := by
    cases h
    exact List.pairwise_singleton _ _
  rootless _ _ h := by cases h.1
  rootless_new _ := by decide
  orphans _ _ _ _ _ h := by
    obtain ⟨e, he, -⟩ := mapper?_eq_some_iff.mp h
    cases he

end Sample

open Server.Sample in
theorem retried_withMail_settings :
    ∃ o, (reconcile withMail {}).run (answer tally) withoutDefaults = (.ok o, mailed) ∧
      (reconcile withMail {}).run ((answer tally).failingAt .transport) (some 1, withoutDefaults) =
        (.error (.remote .transport), none, opened) ∧
      (∃ o' w, (reconcile withMail {}).run (answer tally) opened = (.ok o', w)) ∧
      ∀ w, Retried tally withMail {} opened w →
        ((w.children "people" "master").map settings).Perm
          ((mailed.children "people" "master").map settings) := by
  obtain ⟨o, run⟩ := withMail_run
  have unfound : withoutDefaults.Unfound withMail := by
    refine ⟨fun _ _ => rfl, fun none => ?_⟩
    cases none
  have interrupted : (reconcile withMail {}).run ((answer tally).failingAt .transport)
      (some 1, withoutDefaults) = (.error (.remote .transport), none, opened) :=
    run_breaks_off [] rfl rfl withMail_surveyed withMail_created rfl withMail_planned rfl
  obtain ⟨succeeds, settles⟩ :=
    retried_settings_iff resumable_withMail (.inr ⟨unfound, rfl⟩) rfl run rfl interrupted
  refine ⟨o, run, interrupted, succeeds (.inr ⟨⟨"master", 1, people⟩, rfl, rfl, .inl rfl⟩),
    fun w retried => (settles w retried).mpr (.inl rfl)⟩

namespace Sample

/-- A server that provisions a mapper with every federation of a provider. -/
def provisioning : Server := withoutDefaults.apply tally (.setDefaults "ldap" [mail])

/-- A federation of that provider without a list of mappers. -/
def unlisted : Declaration := { id := some "people", providerId := some "ldap" }

/-- The federation as it is stored. -/
def ldapPeople : Stored := ⟨"master", 1, { people with providerId := some "ldap" }⟩

/-- The federation with the mapper that comes with it. -/
def provisioned : Server where
  components := .ofList [("people", ldapPeople),
    ("~", ⟨"master", 2, { mail with id := some "~", parentId := some "people" }⟩)]
  insertions := 2
  journal := [⟨.create, "people", none⟩]
  defaults := .ofList [("ldap", [mail])]
  idsIssued := 1

/-- The federation without that mapper. -/
def pruned : Server where
  components := .ofList [("people", ldapPeople)]
  insertions := 2
  journal := [⟨.create, "people", none⟩, ⟨.delete, "~", some "mail"⟩]
  defaults := .ofList [("ldap", [mail])]
  idsIssued := 1

theorem reachable_provisioning : Reachable tally provisioning :=
  .apply (.setDefaults "ldap" [mail]) .withoutDefaults

theorem resumable_unlisted : Resumable tally provisioning unlisted where
  reachable := reachable_provisioning
  unignored := rfl
  unarmed := rfl
  defaults provider mappers h m hm := by
    cases List.mem_singleton.mp (SortedMap.get?_eq_some_iff.mp h)
    cases List.mem_singleton.mp hm
    exact ⟨rfl, fun _ hv => by cases hv⟩
  fresh := fresh_tally (by decide) (by decide) (by decide)
  valid := rfl
  present := rfl
  type := .inl rfl
  mappers _ h := by cases h
  names _ h := by cases h
  rootless _ _ h := by cases h.1
  rootless_new _ := by decide
  orphans _ _ _ _ _ h := by
    obtain ⟨e, he, -⟩ := mapper?_eq_some_iff.mp h
    cases he

theorem provisioned_children : provisioned.children "people" "master" =
    [{ mail with id := some "~", parentId := some "people" }] :=
  children_of_values [ldapPeople,
    ⟨"master", 2, { mail with id := some "~", parentId := some "people" }⟩] rfl (by decide)

theorem pruned_children : pruned.children "people" "master" = [] :=
  children_of_values [ldapPeople] rfl (by decide)

theorem provisioned_delete : provisioned.delete "~" "master" = (.ok (), pruned) := by
  have below : provisioned.descendants "~" = [] := by
    have entries : provisioned.components.entries = [("people", ldapPeople),
      ("~", ⟨"master", 2, { mail with id := some "~", parentId := some "people" }⟩)] := rfl
    simp [descendants, entries, cascade, newChildren, ldapPeople, people, mail]
  unfold Server.delete
  rw [below]
  rfl

theorem unlisted_planned :
    planAfterCreation [] (provisioned.children "people" unlisted.realm) "people" unlisted.prune =
      .ok [.delete "~"] := by
  rw [show provisioned.children "people" unlisted.realm = _ from provisioned_children]
  rfl

end Sample

open Server.Sample in
/-- Without a list of mappers, a mapper stays that came with the federation, if the run that was
about to delete it is interrupted: the next run finds nothing to do. -/
theorem retried_unlisted_keeps_provisioned : Resumable tally provisioning unlisted ∧
    ∃ o, (reconcile unlisted {}).run (answer tally) provisioning = (.ok o, pruned) ∧
      (reconcile unlisted {}).run ((answer tally).failingAt .transport) (some 1, provisioning) =
        (.error (.remote .transport), none, provisioned) ∧
      Retried tally unlisted {} provisioned provisioned ∧
      ¬((provisioned.children "people" "master").map settings).Perm
        ((pruned.children "people" "master").map settings) := by
  have surveyed : provisioning.surveyed unlisted = .ok (none, changesWith unlisted none none) := rfl
  have created : provisioning.create tally unlisted.component unlisted.realm =
    (.ok ldapPeople.component, provisioned) := rfl
  have executed : (execute unlisted.realm [.delete "~"]).run (answer tally) provisioned =
      (.ok (), pruned) := by
    simp only [run_execute_cons, Action.call, answer]
    rw [show provisioned.delete "~" unlisted.realm = _ from provisioned_delete]
    rfl
  have apply : ({} : RunMode).dryRun = false := rfl
  obtain ⟨o, run, -⟩ := run_created provisioned _ rfl apply surveyed created rfl unlisted_planned
    executed
  have keyed : provisioned.Keyed :=
    (reachable_provisioning.apply (.call (.create unlisted.component unlisted.realm))).keyed
  have found : provisioned.Found unlisted "people" ldapPeople := ⟨rfl, rfl, .inl rfl⟩
  have same : ((changesWith unlisted (some (provisioned.normalized unlisted.realm "people"
      ldapPeople)) none).applyTo (some (provisioned.normalized unlisted.realm "people"
        ldapPeople))).needsUpdate (provisioned.normalized unlisted.realm "people" ldapPeople)
          unlisted.credentialPolicy = false := by
    rw [applyTo_changesWith]
    exact decide_eq_false (not_not.mpr rfl)
  have again : (reconcile unlisted {}).run (answer tally) provisioned = (.ok _, provisioned) :=
    (run_up_to_date keyed rfl rfl found rfl same).1
  refine ⟨resumable_unlisted, o, run,
    run_breaks_off [] rfl rfl surveyed created rfl unlisted_planned rfl, .done again, ?_⟩
  rw [provisioned_children, pruned_children]
  exact fun perm => absurd perm.length_eq (by decide)

end UserFederation.Server
