import Mathlib.Data.List.Perm.Basic
import UserFederation.Proofs.Noninterference
import UserFederation.Proofs.Scope

/-! The order of mappers. Where mappers have different names, neither the order in which they are
declared nor the order in which a service lists them counts (`order_does_not_matter`): what is
declared in another order leads to the same changes (`run_reordered`), and a run that is shown
another order goes on alike (`Alike.run`), if only with its deletions in another order. -/

namespace UserFederation

/-! ### Different names -/

namespace Component

/-- Components have different names; a missing name counts as empty. -/
def Distinct (cs : List Component) : Prop := (cs.map (·.nameOrEmpty)).Nodup

instance : DecidablePred Distinct := fun cs =>
  inferInstanceAs (Decidable (cs.map (·.nameOrEmpty)).Nodup)

variable {cs cs' : List Component} {kind : Kind} {name : String}

theorem Distinct.of_perm (distinct : Distinct cs) (perm : cs.Perm cs') : Distinct cs' :=
  (perm.map _).nodup_iff.mp distinct

theorem eq_of_sorted_distinct (distinct : Distinct cs) (perm : cs.Perm cs')
    (sorted : cs.Pairwise fun a b => a.nameOrEmpty ≤ b.nameOrEmpty)
    (sorted' : cs'.Pairwise fun a b => a.nameOrEmpty ≤ b.nameOrEmpty) : cs' = cs :=
  eq_of_sorted perm.symm sorted' sorted (List.pairwise_map.mp distinct)

theorem sortByName_perm_eq (distinct : Distinct cs) (perm : cs.Perm cs') :
    sortByName cs' = sortByName cs := by
  have sorted := sortByName_perm cs
  refine eq_of_sorted_distinct (distinct.of_perm sorted.symm) ?_ (sortByName_sorted cs)
    (sortByName_sorted cs')
  exact sorted.trans (perm.trans (sortByName_perm cs').symm)

theorem unique_perm (perm : cs.Perm cs') : unique kind name cs' = unique kind name cs := by
  match cs, perm with
  | [], perm => rw [List.nil_perm.mp perm]
  | [c], perm => rw [List.singleton_perm.mp perm]
  | _ :: _ :: _, perm =>
    match cs', perm.length_eq with
    | _ :: _ :: _, _ => rfl

end Component

namespace Mapper

open Component

variable {ds ds' existing existing' merged merged' target : List Component} {m : Component}
  {n f : String} {prune : Bool}

theorem withName?_perm (perm : existing.Perm existing') :
    withName? n existing' = withName? n existing := unique_perm (perm.filter _)

/-- A name is found at most once. -/
theorem exists_withName? (distinct : Distinct existing) (n : String) :
    ∃ found, withName? n existing = .ok found := by
  refine exists_withName?_iff.mpr (le_trans ?_ (List.nodup_iff_count_le_one.mp distinct n))
  rw [List.count_eq_countP, List.countP_map]
  refine List.countP_mono_left fun c _ named => ?_
  simp only [decide_eq_true_eq] at named
  simp [nameOrEmpty, named]

theorem exists_resolve (distinct : Distinct existing) (m : Component) :
    ∃ c, resolve existing m = .ok c := by
  have found : ∃ found, referent? m existing = .ok found := by
    unfold referent?
    split
    · exact ⟨_, rfl⟩
    · exact exists_withName? distinct _
    · exact ⟨_, rfl⟩
  obtain ⟨found, hf⟩ := found
  exact ⟨_, resolve_eq_ok_iff.mpr ⟨found, hf, rfl⟩⟩

theorem arranged_perm_eq (perm : merged.Perm merged')
    (distinct : Distinct (arranged existing merged prune)) :
    arranged existing merged' prune = arranged existing merged prune := by
  refine eq_of_sorted_distinct distinct ?_ (arranged_sorted _ _ _) (arranged_sorted _ _ _)
  have ids : ∀ i, i ∈ merged.filterMap (·.id) ↔ i ∈ merged'.filterMap (·.id) :=
    fun i => (perm.filterMap _).mem_iff
  refine (arranged_perm existing merged prune).trans ?_
  refine .trans ?_ (arranged_perm existing merged' prune).symm
  rw [unlisted_congr ids]
  exact perm.append_right _

/-- The order in which mappers are declared does not count for the ones to end up with. -/
theorem target_perm (distinct : Distinct existing) (perm : ds.Perm ds')
    (names : ∀ target, Mapper.target ds existing prune = .ok target → Distinct target) :
    Mapper.target ds' existing prune = Mapper.target ds existing prune := by
  obtain ⟨merged, resolved⟩ := exists_related fun m (_ : m ∈ ds) => exists_resolve distinct m
  have made : Mapper.target ds existing prune = .ok (arranged existing merged prune) :=
    target_eq_ok_iff.mpr ⟨merged, resolved, rfl⟩
  obtain ⟨merged', resolved', perm'⟩ := List.perm_comp_forall₂ perm.symm resolved
  rw [made, target_eq_ok_iff]
  exact ⟨merged', resolved', (arranged_perm_eq perm'.symm (names _ made)).symm⟩

/-- Two actions are akin if they are the same or both deletions. -/
inductive Action.Akin : Action → Action → Prop
  | same (a : Action) : Akin a a
  | delete (i j : String) : Akin (.delete i) (.delete j)

theorem actionsAfterCreation_perm (perm : existing.Perm existing') :
    actionsAfterCreation existing' f = actionsAfterCreation existing f := by
  funext m
  unfold actionsAfterCreation
  simp only [withName?_perm perm]

theorem planAfterCreation_eq (declared existing : List Component) (f : String) (prune : Bool) :
    planAfterCreation declared existing f prune =
      (declared.mapM (actionsAfterCreation existing f)).map fun stages =>
        stages.flatMap (·.1) ++ Server.leftovers existing stages prune := by
  unfold planAfterCreation
  cases declared.mapM (actionsAfterCreation existing f) <;> rfl

theorem leftovers_akin (perm : existing.Perm existing')
    (stages : List (List Action × Option String)) (prune : Bool) :
    List.Forall₂ Action.Akin (Server.leftovers existing stages prune)
      (Server.leftovers existing' stages prune) := by
  unfold Server.leftovers
  cases prune with
  | false => exact .nil
  | true =>
    simp only [if_true, List.forall₂_map_left_iff, List.forall₂_map_right_iff]
    refine List.forall₂_iff_zip.mpr ⟨?_, fun _ => .delete _ _⟩
    exact ((perm.filterMap _).filter _).length_eq

/-- The order in which the mappers of a new federation are listed counts for the order of the
deletions only. -/
theorem planAfterCreation_perm (perm : existing.Perm existing') {plan : List Action}
    (h : planAfterCreation ds existing f prune = .ok plan) :
    ∃ plan', planAfterCreation ds existing' f prune = .ok plan' ∧
      List.Forall₂ Action.Akin plan plan' := by
  rw [planAfterCreation_eq] at h ⊢
  rw [actionsAfterCreation_perm perm]
  cases steps : ds.mapM (actionsAfterCreation existing f) with
  | error e =>
    rw [steps] at h
    cases h
  | ok stages =>
    rw [steps] at h
    cases h
    have same : List.Forall₂ Action.Akin (stages.flatMap (·.1)) (stages.flatMap (·.1)) :=
      List.forall₂_same.mpr fun a _ => .same a
    exact ⟨_, rfl, List.rel_append same (leftovers_akin perm stages prune)⟩

theorem planAfterCreation_perm_error (perm : existing.Perm existing') {e : Failure}
    (h : planAfterCreation ds existing f prune = .error e) :
    planAfterCreation ds existing' f prune = .error e := by
  rw [planAfterCreation_eq] at h ⊢
  rw [actionsAfterCreation_perm perm]
  cases steps : ds.mapM (actionsAfterCreation existing f) with
  | error e' =>
    rw [steps] at h
    exact h
  | ok stages =>
    rw [steps] at h
    cases h

end Mapper

/-! ### Declarations in another order -/

/-- A declaration, perhaps with its mappers in another order. -/
inductive Declaration.Reordered (d : Declaration) : Declaration → Prop
  | same : Reordered d d
  | mappers {ms ms' : List MapperDeclaration} (declared : d.mappers = some ms)
    (perm : ms.Perm ms') : Reordered d { d with mappers := some ms' }

section Reordered

open Component Reconcile

variable {d d' : Declaration} {mode : RunMode} {before found : Option Federation}

theorem Declaration.Reordered.validate (h : d.Reordered d') : d'.validate = d.validate := by
  cases h with
  | same => rfl
  | @mappers ms ms' declared perm =>
    have any : ∀ p : MapperDeclaration → Bool, ms'.any p = ms.any p := fun p => by
      rw [Bool.eq_iff_iff, List.any_eq_true, List.any_eq_true]
      simp only [perm.mem_iff]
    unfold Declaration.validate
    simp only [declared, any, perm.length_eq]

theorem Declaration.Reordered.mappersToBe (h : d.Reordered d')
    (names : Distinct (foundMappers before))
    (desired : ∀ target, mappersToBe d before = .ok (some target) → Distinct target) :
    mappersToBe d' before = mappersToBe d before := by
  cases h with
  | same => rfl
  | @mappers ms ms' declared perm =>
    have components : d.mapperComponents = some (ms.map MapperDeclaration.component) := by
      rw [Declaration.mapperComponents, declared, Option.map_some]
    have components' : ({ d with mappers := some ms' } : Declaration).mapperComponents =
      some (ms'.map MapperDeclaration.component) := rfl
    unfold Reconcile.mappersToBe at desired ⊢
    simp only [components, components', List.length_map, perm.length_eq] at desired ⊢
    cases supported : checkMappersSupported (d.providerId.or (foundComponent before).providerId)
      ms'.length with
    | error e => rfl
    | ok _ =>
      simp only [supported] at desired
      rw [Mapper.target_perm names (perm.map _) fun target h => desired target (by rw [h])]

/-- What is declared in another order makes the same changes. -/
theorem Declaration.Reordered.changeset (h : d.Reordered d')
    (names : Distinct (foundMappers before))
    (desired : ∀ changes, Changeset.of d before = .ok changes →
      Distinct (changes.applyTo before).mappers) :
    Changeset.of d' before = Changeset.of d before := by
  have asked : Reconcile.mappersToBe d' before = Reconcile.mappersToBe d before := by
    refine h.mappersToBe names fun target toBe => ?_
    have changed : Changeset.of d before = .ok (changesWith d before (some target)) := by
      rw [of_eq_map, toBe]
      rfl
    have distinct := desired _ changed
    rwa [applyTo_changesWith] at distinct
  rw [of_eq_map, of_eq_map, asked]
  cases h <;> rfl

theorem Declaration.Reordered.conclude (h : d.Reordered d') {changes : Changeset} :
    conclude d' mode before changes = conclude d mode before changes := by
  cases h with
  | same => rfl
  | mappers => exact conclude_with d.config _

/-- What a call replies with different names, if it lists mappers. -/
def Call.TellsApart : (call : Call) → call.Reply → Prop
  | .children .., listed => Distinct listed
  | .find .., _ | .get .., _ | .create .., _ | .update .., _ | .delete .., _ => True

open Dialogue

variable {σ : Type} {service : Service σ} {s : σ}

theorem Reconcile.resolve_tells_apart (d : Declaration) :
    (Federation.resolve d.realm d.id d.name).Keeps Call.TellsApart (fun _ _ => True)
      (fun _ found => Distinct (foundMappers (found.map Federation.undoEcho))) [] := by
  have none_ : Distinct [] := List.nodup_nil
  refine Keeps.bind (lookup_keeps fun _ _ _ _ => trivial) fun found past _ => ?_
  cases found with
  | none => exact none_
  | some c =>
    cases hid : c.id with
    | none =>
      simp only [hid]
      exact none_.of_perm (sortByName_perm []).symm
    | some f =>
      simp only [hid]
      refine ⟨trivial, fun listed distinct => ?_⟩
      exact distinct.of_perm ((sortByName_perm _).trans (sortByName_perm _)).symm

/-- Finds the federation of a declaration. -/
def Reconcile.opening (d : Declaration) : Dialogue (Option Federation) :=
  (lift d.validate).bind fun _ => Federation.resolve d.realm d.id d.name

theorem Reconcile.reconcile_eq_opening (d : Declaration) (mode : RunMode) :
    reconcile d mode = (opening d).bind (proceed d mode) := by
  rw [reconcile_eq_proceed, opening, bind_assoc]

theorem Reconcile.survey_eq_opening (d : Declaration) :
    survey d = (opening d).bind fun found =>
      (lift (Changeset.of d (found.map Federation.undoEcho))).bind fun changes =>
        .done (found.map Federation.undoEcho, changes) := by
  rw [survey, opening, bind_assoc]

theorem Declaration.Reordered.opening (h : d.Reordered d') :
    Reconcile.opening d' = Reconcile.opening d := by
  unfold Reconcile.opening
  rw [h.validate]
  cases h <;> rfl

theorem Declaration.Reordered.proceed (h : d.Reordered d')
    (names : Distinct (foundMappers (found.map Federation.undoEcho)))
    (desired : ∀ changes, Changeset.of d (found.map Federation.undoEcho) = .ok changes →
      Distinct (changes.applyTo (found.map Federation.undoEcho)).mappers) :
    Reconcile.proceed d' mode found = Reconcile.proceed d mode found := by
  unfold Reconcile.proceed
  rw [h.changeset names desired]
  simp only [h.conclude]

/-- Where the mappers that are listed and those to end up with have different names, the order in
which the mappers are declared does not count. -/
theorem Reconcile.run_reordered (declared : d.Reordered d')
    (apart : ∀ call reply, ⟨call, .ok reply⟩ ∈ (reconcile d mode).exchanges service s →
      call.TellsApart reply)
    (desired : ∀ before changes t, (survey d).run service s = (.ok (before, changes), t) →
      Distinct (changes.applyTo before).mappers) :
    (reconcile d' mode).run service s = (reconcile d mode).run service s ∧
      (reconcile d' mode).exchanges service s = (reconcile d mode).exchanges service s := by
  simp only [reconcile_eq_opening, exchanges_bind, run_bind, declared.opening] at apart ⊢
  rcases opened : (opening d).run service s with ⟨e | found, t⟩
  · exact ⟨rfl, rfl⟩
  have kept : (opening d).Keeps Call.TellsApart (fun _ _ => True)
      (fun _ found => Distinct (foundMappers (found.map Federation.undoEcho))) [] :=
    keeps_lift_bind fun _ _ => resolve_tells_apart d
  have names := kept.run (fun call reply member => apart call reply (List.mem_append_left _ member))
    opened
  have same : proceed d' mode found = proceed d mode found := by
    refine declared.proceed names fun changes changed => desired _ changes t ?_
    rw [survey_eq_opening, run_bind, opened]
    simp only [changed]
    rfl
  simp only [same, and_self]

end Reordered

/-! ### Replies in another order -/

/-- Two replies are the same, or lists of the same components. -/
def Call.Rearranged : (call : Call) → call.Reply → call.Reply → Prop
  | .find .., listed, listed' => listed.Perm listed'
  | .children .., listed, listed' => listed.Perm listed'
  | .get .., reply, reply' => reply = reply'
  | .create .., reply, reply' => reply = reply'
  | .update .., _, _ => True
  | .delete .., _, _ => True

namespace Dialogue

variable {α β : Type}

/-- Whatever the order in which components are listed, the mappers under different names, two
programs make the same calls, their deletions aside, and have the same result. -/
inductive Alike : Dialogue α → Dialogue α → Prop
  | done (a : α) : Alike (.done a) (.done a)
  | fail (e : Failure) : Alike (.fail e) (.fail e)
  | ask (call : Call) {next next' : call.Reply → Dialogue α}
    (h : ∀ reply reply', call.TellsApart reply → call.Rearranged reply reply' →
      Alike (next reply) (next' reply')) : Alike (.ask call next) (.ask call next')
  | delete {i j realm : String} {next next' : Unit → Dialogue α}
    (h : Alike (next ()) (next' ())) :
    Alike (.ask (.delete i realm) next) (.ask (.delete j realm) next')

variable {p p' : Dialogue α} {f f' : α → Dialogue β}

theorem alike_lift (x : Except Failure α) : Alike (lift x) (lift x) := by
  cases x with
  | error e => exact .fail e
  | ok a => exact .done a

theorem Alike.bind (h : Alike p p') (hf : ∀ a, Alike (f a) (f' a)) :
    Alike (p.bind f) (p'.bind f') := by
  induction h with
  | done a => exact hf a
  | fail e => exact .fail e
  | ask call _ ih => exact .ask call fun reply reply' apart same => ih reply reply' apart same
  | delete _ ih => exact .delete ih

end Dialogue

/-- A scripted reply, perhaps with its components in another order. -/
inductive ScriptedReply.Reordered : ScriptedReply → ScriptedReply → Prop
  | same (reply : ScriptedReply) : Reordered reply reply
  | components {cs cs' : List Component} (perm : cs.Perm cs') :
    Reordered (.components cs) (.components cs')

theorem rearranged_refl (call : Call) (reply : call.Reply) : call.Rearranged reply reply := by
  cases call with
  | find | children => exact .refl _
  | get | create => rfl
  | update | delete => trivial

/-- Scripted replies that differ in an order say the same to a call, up to an order. -/
theorem ScriptedReply.Reordered.answer {r r' : ScriptedReply} (h : r.Reordered r') (call : Call) :
    (∃ e, r.answer call = .error e ∧ r'.answer call = .error e) ∨
      ∃ reply reply', r.answer call = .ok reply ∧ r'.answer call = .ok reply' ∧
        call.Rearranged reply reply' := by
  cases h with
  | same =>
    cases answered : r.answer call with
    | error e => exact .inl ⟨e, rfl, rfl⟩
    | ok reply => exact .inr ⟨reply, reply, rfl, rfl, rearranged_refl call reply⟩
  | @components cs cs' perm =>
    cases call with
    | find | children => exact .inr ⟨cs, cs', rfl, rfl, perm⟩
    | update | delete => exact .inr ⟨(), (), rfl, rfl, trivial⟩
    | get | create => exact .inl ⟨_, rfl, rfl⟩

theorem answer_delete (reply : ScriptedReply) (i j realm : String) :
    (reply.answer (.delete i realm) : Except Failure Unit) = reply.answer (.delete j realm) := by
  cases reply <;> rfl

open Dialogue in
/-- Programs that are alike have the same result on scripts that differ in an order. -/
theorem Dialogue.Alike.run {α : Type} {p p' : Dialogue α} (h : Alike p p') {script script' : Script}
    (replies : List.Forall₂ ScriptedReply.Reordered script script')
    (apart : ∀ call reply, ⟨call, .ok reply⟩ ∈ p.exchanges Script.answer script →
      call.TellsApart reply) :
    (p'.run Script.answer script').1 = (p.run Script.answer script).1 := by
  induction h generalizing script script' with
  | done | fail => rfl
  | ask call _ ih =>
    rw [exchanges_ask] at apart
    rw [run_ask, run_ask]
    cases replies with
    | nil => rfl
    | cons reordered rest =>
      simp only [Script.answer] at apart ⊢
      rcases reordered.answer call with ⟨e, said, said'⟩ | ⟨reply, reply', said, said', same⟩
      · rw [said, said']
      · rw [said] at apart ⊢
        rw [said']
        exact ih reply reply' (apart call reply List.mem_cons_self) same rest
          fun call r member => apart call r (List.mem_cons_of_mem _ member)
  | @delete i j realm _ _ _ ih =>
    rw [exchanges_ask] at apart
    rw [run_ask, run_ask]
    cases replies with
    | nil => rfl
    | cons reordered rest =>
      simp only [Script.answer] at apart ⊢
      rcases reordered.answer (.delete i realm) with ⟨e, said, said'⟩ | ⟨⟨⟩, ⟨⟩, said, said', -⟩
      · rw [said, (answer_delete _ j i realm).trans said']
      · rw [said] at apart ⊢
        rw [(answer_delete _ j i realm).trans said']
        exact ih rest fun call r member => apart call r (List.mem_cons_of_mem _ member)

namespace Reconcile

open Component Dialogue Mapper

variable {d d' : Declaration} {mode : RunMode} {outcome : Outcome} {before : Option Federation}
  {changes : Changeset} {existing desired : Federation} {f : String}

theorem fetchMappers_alike (realm id : String) :
    Alike (Federation.fetchMappers realm id) (Federation.fetchMappers realm id) := by
  refine .ask _ fun listed listed' apart same => ?_
  have sorted : sortByName listed' = sortByName listed := sortByName_perm_eq apart same
  simp only [done_bind, pure_eq_done]
  rw [sorted]
  exact .done _

theorem lookup_alike (realm : String) (id name : Option String) :
    Alike (Federation.lookup realm id name) (Federation.lookup realm id name) := by
  match id, name with
  | some id, _ =>
    refine .ask _ fun found found' _ same => ?_
    cases same
    exact .done _
  | none, some name =>
    refine .ask _ fun listed listed' _ perm => ?_
    simp only [done_bind, unique_perm perm]
    exact alike_lift _
  | none, none => exact .fail _

theorem execute_alike {realm : String} {plan plan' : List Action}
    (akin : List.Forall₂ Action.Akin plan plan') :
    Alike (execute realm plan) (execute realm plan') := by
  induction akin with
  | nil => exact .done ()
  | cons action _ ih =>
    cases action with
    | same a => exact .ask _ fun _ _ _ _ => ih
    | delete i j => exact .delete ih

theorem opening_alike (d : Declaration) : Alike (opening d) (opening d) := by
  refine (alike_lift _).bind fun _ => (lookup_alike _ _ _).bind fun found => ?_
  cases found with
  | none => exact .done _
  | some c =>
    cases hid : c.id with
    | none =>
      simp only [hid]
      exact .done _
    | some f =>
      simp only [hid]
      exact (fetchMappers_alike _ _).bind fun _ => .done _

theorem create_alike : Alike (create d mode desired outcome) (create d mode desired outcome) := by
  cases apply : mode.dryRun with
  | true =>
    unfold create
    rw [apply]
    exact .done _
  | false =>
    rw [create_apply apply]
    refine .ask _ fun created created' _ same => ?_
    cases same
    cases hid : created.id with
    | none =>
      simp only
      exact .fail _
    | some f =>
      simp only
      refine .ask _ fun defaults defaults' _ perm => ?_
      cases planned : planAfterCreation desired.mappers defaults f d.prune with
      | error e =>
        rw [planAfterCreation_perm_error perm planned]
        exact .fail e
      | ok plan =>
        obtain ⟨plan', planned', akin⟩ := planAfterCreation_perm perm planned
        rw [planned']
        exact (execute_alike akin).bind fun _ => (fetchMappers_alike _ _).bind fun _ => .done _

theorem delete_alike : Alike (delete d mode existing outcome) (delete d mode existing outcome) := by
  refine (alike_lift _).bind fun f => ?_
  simp only
  split
  · exact .done _
  · exact .ask _ fun _ _ _ _ => .done _

theorem update_alike :
    Alike (update d mode existing desired outcome) (update d mode existing desired outcome) := by
  refine (alike_lift _).bind fun f => ?_
  simp only
  split
  · exact .done _
  · split
    · exact .done _
    · refine .ask _ fun _ _ _ _ => ?_
      refine (execute_alike (List.forall₂_same.mpr fun a _ => .same a)).bind fun _ => ?_
      refine .ask _ fun refreshed refreshed' _ same => ?_
      cases same
      cases refreshed with
      | none => exact .fail _
      | some c => exact (fetchMappers_alike _ _).bind fun _ => .done _

theorem reconcile_alike (d : Declaration) (mode : RunMode) :
    Alike (reconcile d mode) (reconcile d mode) := by
  rw [reconcile_eq_opening]
  refine (opening_alike d).bind fun found => (alike_lift _).bind fun changes => ?_
  unfold conclude
  split
  · exact .done _
  · exact create_alike
  · exact delete_alike
  · exact update_alike

/-- The order of mappers does not matter. Where the mappers that are listed have different names,
and so have those to end up with, a run has the same result with the declared mappers in another
order and the replies with their components in another order; with only the declared mappers in
another order, it also makes the same calls. -/
theorem order_does_not_matter {script script' : Script}
    (listings : ∀ f realm listed, ⟨.children f realm, .ok listed⟩ ∈
      (reconcile d mode).exchanges Script.answer script → Distinct listed)
    (names : ∀ before changes rest, (survey d).run Script.answer script =
      (.ok (before, changes), rest) → Distinct (changes.applyTo before).mappers)
    (declared : d.Reordered d') (replies : List.Forall₂ ScriptedReply.Reordered script script') :
    ((reconcile d' mode).run Script.answer script').1 =
        ((reconcile d mode).run Script.answer script).1 ∧
      (reconcile d' mode).runLogged Script.answer script =
        (reconcile d mode).runLogged Script.answer script := by
  have apart : ∀ call reply, ⟨call, .ok reply⟩ ∈
      (reconcile d mode).exchanges Script.answer script → call.TellsApart reply := by
    intro call reply member
    cases call with
    | children f realm => exact listings f realm reply member
    | find | get | create | update | delete => trivial
  obtain ⟨run, exchanged⟩ := run_reordered declared apart names
  have alike := (reconcile_alike d' mode).run replies (exchanged ▸ apart)
  exact ⟨alike.trans (congrArg Prod.fst run), by rw [runLogged_eq, runLogged_eq, run, exchanged]⟩

/-! ### Where it does not matter -/

theorem exists_scripted {α : Type} {p : Dialogue α} {script : Script} {call : Call}
    {reply : call.Reply} (h : ⟨call, .ok reply⟩ ∈ p.exchanges Script.answer script) :
    ∃ r ∈ script, r.answer call = .ok reply := by
  induction p generalizing script with
  | done | fail => cases h
  | ask c next ih =>
    rw [exchanges_ask] at h
    cases script with
    | nil => cases List.mem_singleton.mp h
    | cons r rest =>
      simp only [Script.answer] at h
      cases said : r.answer c with
      | error e =>
        rw [said] at h
        cases List.mem_singleton.mp h
      | ok given =>
        rw [said] at h
        rcases List.mem_cons.mp h with first | later
        · cases first
          exact ⟨r, List.mem_cons_self, said⟩
        · obtain ⟨r', member, said'⟩ := ih given later
          exact ⟨r', List.mem_cons_of_mem _ member, said'⟩

/-- A script shows different names if each list of it does. -/
theorem listed_distinct {α : Type} {p : Dialogue α} {script : Script}
    (lists : ∀ cs, .components cs ∈ script → Distinct cs) {realm : String} {listed : List Component}
    (h : ⟨.children f realm, .ok listed⟩ ∈ p.exchanges Script.answer script) : Distinct listed := by
  obtain ⟨r, member, said⟩ := exists_scripted h
  cases r with
  | components =>
    cases said
    exact lists _ member
  | failure | component | nothing => cases said

/-- Where mappers are pruned, those to end up with have the names that are declared. -/
theorem desired_distinct {ds : List Component} (prune : d.prune = true)
    (declared : d.mapperComponents = some ds) (named : ∀ m ∈ ds, m.name.isSome)
    (distinct : Distinct ds) (changed : Changeset.of d before = .ok changes) :
    Distinct (changes.applyTo before).mappers := by
  have target := (applyTo_mappers_of_some changed declared).2
  rw [prune] at target
  obtain ⟨merged, resolved, arranged⟩ := target_eq_ok_iff.mp target
  have names : ds.map (·.nameOrEmpty) = merged.map (·.nameOrEmpty) := by
    rw [← List.forall₂_eq_eq_eq, List.forall₂_map_left_iff, List.forall₂_map_right_iff]
    refine related_imp resolved fun m hm c _ made => ?_
    obtain ⟨found, -, rfl⟩ := resolve_eq_ok_iff.mp made
    obtain ⟨name, hn⟩ := Option.isSome_iff_exists.mp (named m hm)
    change m.name.getD "" = (m.name.or _).getD ""
    rw [hn, Option.some_or]
  have merged_distinct : Distinct merged := by rwa [Distinct, ← names]
  rw [arranged, Mapper.arranged, if_pos rfl]
  exact merged_distinct.of_perm (sortByName_perm merged).symm

end Reconcile

namespace Server.Sample

/-- Two mappers are declared, and others pruned. -/
def twoDeclared : Declaration where
  id := some "people"
  mappers := some [{ name := some "mail" }, { name := some "phone" }]

/-- The federation is created with three mappers, of which one is declared. -/
def threeListed : Script :=
  [.nothing, .component people,
    .components [{ mail with id := some "1" }, { id := some "2", name := some "fax" },
      { id := some "3", name := some "post" }],
    .nothing, .component people, .nothing, .nothing, .components [mail]]

/-- The mappers that come with the federation are listed in another order. -/
def threeRelisted : Script :=
  [.nothing, .component people,
    .components [{ id := some "3", name := some "post" }, { mail with id := some "1" },
      { id := some "2", name := some "fax" }],
    .nothing, .component people, .nothing, .nothing, .components [mail]]

theorem threeListed_distinct : ∀ cs, .components cs ∈ threeListed → Component.Distinct cs := by
  intro cs member
  simp only [threeListed, List.mem_cons, ScriptedReply.components.injEq, reduceCtorEq, false_or,
    List.not_mem_nil, or_false] at member
  rcases member with rfl | rfl <;> decide

theorem threeListed_reordered : List.Forall₂ ScriptedReply.Reordered threeListed threeRelisted :=
  have same : ∀ r : ScriptedReply, r.Reordered r := .same
  .cons (same _) (.cons (same _) (.cons (.components (by decide)) (.cons (same _) (.cons (same _)
    (.cons (same _) (.cons (same _) (.cons (same _) .nil)))))))

end Server.Sample

open Server.Sample in
theorem Reconcile.order_of_three_does_not_matter :
    let declared : Declaration :=
      { twoDeclared with mappers := some [{ name := some "phone" }, { name := some "mail" }] }
    ((reconcile declared {}).run Script.answer threeRelisted).1 =
        ((reconcile twoDeclared {}).run Script.answer threeListed).1 ∧
      (reconcile declared {}).runLogged Script.answer threeListed =
        (reconcile twoDeclared {}).runLogged Script.answer threeListed := by
  refine order_does_not_matter (fun f realm listed => listed_distinct threeListed_distinct) ?_
    (.mappers rfl (.swap _ _ _)) threeListed_reordered
  intro before changes rest surveyed
  have changed := ((survey_keeps fun _ _ _ _ => trivial).run (fun _ _ _ => trivial) surveyed).2
  exact desired_distinct rfl rfl (by decide) (by decide) changed

end UserFederation
