import UserFederation.Proofs.Course
import UserFederation.Proofs.Rejection
import UserFederation.Proofs.Serving

/-! What a run may touch. What it knows when it makes a call is said for whatever it keeps to
(`survey_keeps`, `create_keeps`, `update_keeps`). Plans update and delete listed mappers only
(`planUpdate_addresses`, `planAfterCreation_addresses`), so a run changes nothing but its federation
and the mappers that it was shown below it (`calls_stay_in_scope`). -/

namespace UserFederation

namespace Mapper

variable {declared defaults existing : List Component} {f : String} {m : Component} {prune : Bool}

/-- What an action changes or deletes has one of the given ids. -/
def Action.Addresses (ids : List String) : Action → Prop
  | .create _ => True
  | .update m => ∃ i ∈ ids, m.id = some i
  | .delete i => i ∈ ids

theorem actionFor_addresses {a : Action} (h : actionFor existing f m = some a) :
    a.Addresses (existing.filterMap (·.id)) := by
  cases actionFor_attended h with
  | update _ known hid => exact ⟨_, known, hid⟩
  | create => trivial

/-- The plan for an existing federation updates and deletes existing mappers only. -/
theorem planUpdate_addresses : ∀ a ∈ planUpdate declared existing f,
    a.Addresses (existing.filterMap (·.id)) := by
  intro a ha
  rcases List.mem_append.mp ha with deleted | acted
  · obtain ⟨i, hi, rfl⟩ := List.mem_map.mp deleted
    exact (List.mem_filter.mp hi).1
  · obtain ⟨m, -, hm⟩ := List.mem_filterMap.mp acted
    exact actionFor_addresses hm

/-- What an action for a new federation deletes or sends: a mapper that came with it, a declared
mapper, or a declared one laid over one of its name that came. -/
inductive Stems (declared defaults : List Component) (f : String) : Action → Prop
  | delete {p : Component} {i : String} (hp : p ∈ defaults) (hi : p.id = some i) :
    Stems declared defaults f (.delete i)
  | create {m : Component} (hm : m ∈ declared) :
    Stems declared defaults f (.create (m.withParent f))
  | replace {p m : Component} (hm : m ∈ declared) (hp : p ∈ defaults) (named : m.name.isSome) :
    Stems declared defaults f (.create ((p.mergedWith m).withParent f))
  | update {p m : Component} {i : String} (hm : m ∈ declared) (hp : p ∈ defaults)
    (named : m.name.isSome) (hi : p.id = some i) (kept : (p.mergedWith m).id = some i) :
    Stems declared defaults f (.update (p.mergedWith m))

theorem Handled.stem (hm : m ∈ declared) {stage : List Action × Option String}
    (h : Handled defaults f m stage) : ∀ a ∈ stage.1, Stems declared defaults f a := by
  cases h with
  | create => exact List.forall_mem_singleton.mpr (.create hm)
  | update matched hi kept =>
    exact List.forall_mem_singleton.mpr (.update hm matched.mem matched.named hi kept)
  | replace matched hi =>
    exact List.forall_mem_cons.mpr ⟨.delete matched.mem hi,
      List.forall_mem_singleton.mpr (.replace hm matched.mem matched.named)⟩
  | unidentified matched =>
    exact List.forall_mem_singleton.mpr (.replace hm matched.mem matched.named)

/-- The plan for a new federation makes new mappers of declared ones, and updates and deletes
mappers that came with it. -/
theorem planAfterCreation_stems {plan : List Action}
    (h : planAfterCreation declared defaults f prune = .ok plan) :
    ∀ a ∈ plan, Stems declared defaults f a := by
  obtain ⟨stages, steps, rfl⟩ := Server.planAfterCreation_eq_ok h
  intro a ha
  rcases List.mem_append.mp ha with acted | left_
  · obtain ⟨stage, hs, ha⟩ := List.mem_flatMap.mp acted
    obtain ⟨m, hm, made⟩ := exists_left_of_mem steps hs
    exact (actionsAfterCreation_handled made).stem hm a ha
  · unfold Server.leftovers at left_
    split at left_
    · obtain ⟨i, hi, rfl⟩ := List.mem_map.mp left_
      obtain ⟨p, hp, hpi⟩ := List.mem_filterMap.mp (List.mem_filter.mp hi).1
      exact .delete hp hpi
    · cases left_

/-- The plan for a new federation updates and deletes mappers that came with it only. -/
theorem planAfterCreation_addresses {plan : List Action}
    (h : planAfterCreation declared defaults f prune = .ok plan) :
    ∀ a ∈ plan, a.Addresses (defaults.filterMap (·.id)) := by
  intro a ha
  cases planAfterCreation_stems h a ha with
  | delete hp hi => exact List.mem_filterMap.mpr ⟨_, hp, hi⟩
  | create | replace => trivial
  | update _ hp _ hi kept => exact ⟨_, List.mem_filterMap.mpr ⟨_, hp, hi⟩, kept⟩

end Mapper

namespace Reconcile

open Dialogue Mapper

/-! ### What a run knows -/

/-- The component that a run found. -/
def foundIn (xs : List Exchange) : Option Component := (xs.head?.bind Exchange.found?).join

/-- The first component that a run created. -/
def createdIn (xs : List Exchange) : Option Component := xs.findSome? Exchange.created?

/-- The id of the federation of a run: the one that it found, else the one that it created. -/
def subject? (xs : List Exchange) : Option String := ((foundIn xs).or (createdIn xs)).bind (·.id)

/-- A mapper was listed below the federation of a run. -/
def Shown (realm : String) (xs : List Exchange) (m : Component) : Prop :=
  ∃ f listed, subject? xs = some f ∧ ⟨.children f realm, .ok listed⟩ ∈ xs ∧ m ∈ listed

/-- A mapper of the id `i` was listed below the federation of a run. -/
def Listed (realm : String) (xs : List Exchange) (i : String) : Prop :=
  ∃ f listed m, subject? xs = some f ∧ ⟨.children f realm, .ok listed⟩ ∈ xs ∧ m ∈ listed ∧
    m.id = some i

/-- A run has changed nothing so far. -/
def Unchanged (xs : List Exchange) : Prop := ∀ x ∈ xs, x.call.isMutation = false

variable {xs ys : List Exchange} {realm i : String}

theorem foundIn_append (answered : xs ≠ []) : foundIn (xs ++ ys) = foundIn xs := by
  unfold foundIn
  rw [List.head?_append_of_ne_nil _ answered]

theorem createdIn_append {c : Component} (h : createdIn xs = some c) :
    createdIn (xs ++ ys) = some c := by
  rw [createdIn, List.findSome?_append, show xs.findSome? Exchange.created? = some c from h,
    Option.some_or]

theorem subject?_append {f : String} (h : subject? xs = some f) : subject? (xs ++ ys) = some f := by
  have answered : xs ≠ [] := by
    rintro rfl
    cases h
  unfold subject? at h ⊢
  rw [foundIn_append answered]
  cases hf : foundIn xs with
  | some c => rwa [hf] at h
  | none =>
    rw [hf, Option.none_or] at h
    rw [Option.none_or]
    obtain ⟨c, hc, hid⟩ := Option.bind_eq_some_iff.mp h
    rw [createdIn_append hc]
    exact hid

/-- What was listed stays so. -/
theorem Shown.append {m : Component} (h : Shown realm xs m) : Shown realm (xs ++ ys) m := by
  obtain ⟨f, listed, subject, shown, there⟩ := h
  exact ⟨f, listed, subject?_append subject, List.mem_append_left _ shown, there⟩

theorem Shown.listed {m : Component} (h : Shown realm xs m) (hid : m.id = some i) :
    Listed realm xs i := by
  obtain ⟨f, listed, subject, shown, there⟩ := h
  exact ⟨f, listed, m, subject, shown, there, hid⟩

/-- A run that has found and changed nothing is about what it creates then. -/
theorem subject?_created (answered : xs ≠ []) (unfound : foundIn xs = none) (reads : Unchanged xs)
    {c created : Component} {f : String} (hid : created.id = some f) :
    subject? (xs ++ [⟨.create c realm, .ok created⟩]) = some f := by
  have uncreated : createdIn xs = none := by
    refine List.findSome?_eq_none_iff.mpr fun x hx => ?_
    have same := reads x hx
    unfold Exchange.created?
    split
    · cases same
    · rfl
  rw [subject?, foundIn_append answered, unfound, Option.none_or, createdIn,
    List.findSome?_append, show xs.findSome? Exchange.created? = none from uncreated]
  exact hid

theorem Unchanged.append (h : Unchanged xs) {c : Call} (reads : c.isMutation = false)
    (reply : c.Reply) : Unchanged (xs ++ [⟨c, .ok reply⟩]) :=
  List.forall_mem_append.mpr ⟨h, List.forall_mem_singleton.mpr reads⟩

variable {d : Declaration} {mode : RunMode} {past : List Exchange} {outcome : Outcome}
  {before : Option Federation} {changes : Changeset} {existing desired : Federation} {f : String}

/-! ### What a run keeps to -/

section Keeping

variable {may : (call : Call) → call.Reply → Prop} {P : List Exchange → Call → Prop}

/-- What a run knows once it has looked, and normalized what it found. -/
structure Looked (may : (call : Call) → call.Reply → Prop) (d : Declaration) (past : List Exchange)
    (before : Option Federation) : Prop where
  answered : past ≠ []
  unchanged : Unchanged past
  found : before.map (·.component) = (foundIn past).map Component.undoEcho
  given : ∀ existing ∈ before, ∀ i, d.id = some i →
    ∃ c, may (.get i d.realm) (some c) ∧ existing.id = c.id
  shown : ∀ existing ∈ before, ∀ m ∈ existing.mappers, Shown d.realm past m

theorem Looked.foundIn_id (h : Looked may d past (some existing))
    (hf : existing.component.existingId = .ok f) : (foundIn past).bind (·.id) = some f := by
  obtain ⟨c, hc, same⟩ := Option.map_eq_some_iff.mp h.found.symm
  have id : c.undoEcho.id = existing.component.id := by rw [same]
  rw [hc, Option.bind_some, show c.id = existing.component.id from id]
  exact existingId_ok hf

/-- A run may always read in the realm of its declaration. -/
def AllowsReading (d : Declaration) (P : List Exchange → Call → Prop) : Prop :=
  ∀ past call, call.realm = d.realm → call.isMutation = false → P past call

theorem execute_keeps {plan : List Action}
    (acts : ∀ a ∈ plan, ∀ ys, P (past ++ ys) (a.call d.realm)) :
    (Mapper.execute d.realm plan).Keeps may P (fun _ _ => True) past := by
  -- The past grows with each action.
  induction plan generalizing past with
  | nil => trivial
  | cons a plan ih =>
    refine ⟨by simpa using acts a List.mem_cons_self [], fun _ _ => ih fun b hb ys => ?_⟩
    rw [List.append_assoc]
    exact acts b (List.mem_cons_of_mem _ hb) _

theorem fetchMappers_keeps (reads : AllowsReading d P) :
    (Federation.fetchMappers d.realm f).Keeps may P
      (fun past' mappers => ∃ listed, mappers = Component.sortByName listed ∧
        past' = past ++ [⟨.children f d.realm, .ok listed⟩]) past :=
  ⟨reads _ _ rfl rfl, fun listed _ => ⟨listed, rfl, rfl⟩⟩

/-- A look-up tells what it finds, and changes nothing. -/
theorem lookup_keeps (reads : AllowsReading d P) :
    (Federation.lookup d.realm d.id d.name).Keeps may P
      (fun past found => past ≠ [] ∧ Unchanged past ∧ foundIn past = found ∧
        ∀ c ∈ found, ∀ i, d.id = some i → may (.get i d.realm) (some c)) [] := by
  cases hid : d.id with
  | some i =>
    refine ⟨reads _ _ rfl rfl, fun found came =>
      ⟨by simp, by simp [Unchanged, Call.isMutation], rfl, ?_⟩⟩
    rintro c hc _ ⟨⟩
    cases hc
    exact came
  | none =>
    cases hn : d.name with
    | none => trivial
    | some name =>
      refine ⟨reads _ _ rfl rfl, fun listed _ => keeps_lift fun found hf => ?_⟩
      refine ⟨by simp, by simp [Unchanged, Call.isMutation], ?_, by simp⟩
      simp [foundIn, Exchange.found?, hf, Except.toOption]

theorem resolve_keeps (reads : AllowsReading d P) :
    (Federation.resolve d.realm d.id d.name).Keeps may P
      (fun past before => Looked may d past (before.map Federation.undoEcho)) [] := by
  refine Keeps.bind (lookup_keeps reads) fun found past looked => ?_
  obtain ⟨answered, unchanged, same, given⟩ := looked
  cases found with
  | none => exact ⟨answered, unchanged, by rw [same]; rfl, by simp, by simp⟩
  | some c =>
    cases hid : c.id with
    | none =>
      simp only [hid]
      refine ⟨answered, unchanged, by rw [same]; rfl, ?_, ?_⟩
      · rintro _ ⟨⟩ i hi
        exact ⟨c, given c rfl i hi, rfl⟩
      · rintro _ ⟨⟩ m hm
        simp [Federation.undoEcho, Federation.ofParts, Component.sortByName] at hm
    | some f =>
      simp only [hid]
      refine Keeps.bind (fetchMappers_keeps reads) ?_
      rintro _ _ ⟨listed, rfl, rfl⟩
      have found : foundIn (past ++ [⟨.children f d.realm, .ok listed⟩]) = some c :=
        (foundIn_append answered).trans same
      refine ⟨by simp, unchanged.append rfl _, by rw [found]; rfl, ?_, ?_⟩
      · rintro _ ⟨⟩ i hi
        exact ⟨c, given c rfl i hi, rfl⟩
      · rintro _ ⟨⟩ m hm
        refine ⟨f, listed, ?_, by simp, ?_⟩
        · rw [subject?, found]
          exact hid
        · exact List.mem_mergeSort.mp (List.mem_mergeSort.mp hm)

theorem survey_keeps (reads : AllowsReading d P) :
    (survey d).Keeps may P (fun past found => Looked may d past found.1 ∧
      Changeset.of d found.1 = .ok found.2) [] := by
  refine keeps_lift_bind fun _ _ => Keeps.bind (resolve_keeps reads) fun found past looked => ?_
  exact keeps_lift_bind fun changes changed => ⟨looked, changed⟩

theorem create_keeps (reads : AllowsReading d P) (looked : Looked may d past none)
    (creates : P past (.create desired.component d.realm))
    (acts : ∀ f defaults plan past', Mapper.planAfterCreation desired.mappers defaults f d.prune =
        .ok plan → (∀ m ∈ defaults, Shown d.realm past' m) → ¬Unchanged past' →
      ∀ a ∈ plan, P past' (a.call d.realm)) :
    (create d mode desired outcome).Keeps may P (fun _ _ => True) past := by
  cases apply : mode.dryRun with
  | true =>
    unfold create
    rw [apply]
    trivial
  | false =>
    rw [create_apply apply]
    refine ⟨creates, fun created _ => ?_⟩
    cases hid : created.id with
    | none =>
      simp only [hid]
      trivial
    | some f =>
      simp only [hid]
      refine ⟨reads _ _ rfl rfl, fun defaults _ => keeps_lift_bind fun plan planned => ?_⟩
      -- Nothing was found and nothing created before, so the run is about what it has just created.
      have unfound : foundIn past = none := Option.map_eq_none_iff.mp looked.found.symm
      have subject : subject? (past ++ [⟨.create desired.component d.realm, .ok created⟩]) =
          some f := subject?_created looked.answered unfound looked.unchanged hid
      refine Keeps.bind (execute_keeps fun a ha ys => acts f defaults plan _ planned ?_ ?_ a ha)
        fun _ _ _ => Keeps.bind (fetchMappers_keeps reads) fun _ _ _ => trivial
      · exact fun m hm => Shown.append ⟨f, defaults, subject?_append subject, by simp, hm⟩
      · intro unchanged
        cases unchanged ⟨.create desired.component d.realm, .ok created⟩ (by simp)

theorem delete_keeps (deletes : ∀ f, existing.component.existingId = .ok f →
      P past (.delete f d.realm)) :
    (delete d mode existing outcome).Keeps may P (fun _ _ => True) past := by
  refine keeps_lift_bind fun f hf => ?_
  simp only
  split
  · trivial
  · exact ⟨deletes f hf, fun _ _ => trivial⟩

theorem update_keeps (reads : AllowsReading d P) (looked : Looked may d past (some existing))
    (updates : ∀ f, existing.component.existingId = .ok f →
      P past (.update desired.component d.realm))
    (acts : ∀ f past', (∀ m ∈ existing.mappers, Shown d.realm past' m) → ¬Unchanged past' →
      ∀ a ∈ Mapper.planUpdate desired.mappers existing.mappers f, P past' (a.call d.realm)) :
    (update d mode existing desired outcome).Keeps may P (fun _ _ => True) past := by
  refine keeps_lift_bind fun f hf => ?_
  simp only
  split
  · trivial
  · split
    · trivial
    · simp only [bind_eq, call, ask_bind, done_bind]
      refine ⟨updates f hf, fun _ _ => ?_⟩
      refine Keeps.bind (execute_keeps fun a ha ys => acts f _ ?_ ?_ a ha) fun _ _ _ => ?_
      · exact fun m hm => (looked.shown existing rfl m hm).append.append
      · intro unchanged
        cases unchanged ⟨.update desired.component d.realm, .ok ()⟩ (by simp)
      · refine ⟨reads _ _ rfl rfl, fun refreshed _ => ?_⟩
        cases refreshed with
        | none => trivial
        | some c => exact Keeps.bind (fetchMappers_keeps reads) fun _ _ _ => trivial

end Keeping

/-! ### What a run may do -/

/-- The changes that a run may make after some exchanges. A federation that has to be present may be
created or, as the first change, updated; mappers may be created, and listed ones updated and
deleted. One that has to be absent may be deleted, and nothing else changed. -/
def Permits (d : Declaration) (past : List Exchange) : Call → Prop
  | .create _ _ => d.state = .present
  | .update c _ => d.state = .present ∧ ∃ i, c.id = some i ∧
    ((foundIn past).bind (·.id) = some i ∧ Unchanged past ∨ Listed d.realm past i)
  | .delete i _ =>
    match d.state with
    | .present => Listed d.realm past i
    | .absent => (foundIn past).bind (·.id) = some i ∧ Unchanged past
  | _ => True

/-- A call about the realm of a declaration that a run may make. -/
def InScope (d : Declaration) (past : List Exchange) (call : Call) : Prop :=
  call.realm = d.realm ∧ Permits d past call

/-- A service answers a look-up by an id with a component of this id. -/
def Honest (call : Call) (reply : call.Reply) : Prop :=
  match call, reply with
  | .get id _, some c => c.id = some id
  | _, _ => True

theorem allowsReading_inScope (d : Declaration) : AllowsReading d (InScope d) := by
  intro past call realm reads
  cases call with
  | find | get | children => exact ⟨realm, trivial⟩
  | create | update | delete => cases reads

theorem permits_action (present : d.state = .present) {a : Action} {listed : List Component}
    (addresses : a.Addresses (listed.filterMap (·.id)))
    (shown : ∀ m ∈ listed, Shown d.realm past m) : InScope d past (a.call d.realm) := by
  have known : ∀ i ∈ listed.filterMap (·.id), Listed d.realm past i := by
    intro i hi
    obtain ⟨m, hm, same⟩ := List.mem_filterMap.mp hi
    exact (shown m hm).listed same
  cases a with
  | create m => exact ⟨rfl, present⟩
  | update m =>
    obtain ⟨i, hi, hid⟩ := addresses
    exact ⟨rfl, present, i, hid, .inr (known i hi)⟩
  | delete i =>
    refine ⟨rfl, ?_⟩
    simp only [Permits, present]
    exact known i addresses

/-- An update of the federation is one of what was found. -/
theorem permits_update (looked : Looked Honest d past (some existing))
    (present : d.state = .present) (changed : Changeset.of d (some existing) = .ok changes)
    (hf : existing.component.existingId = .ok f) :
    InScope d past (.update (changes.applyTo (some existing)).component d.realm) := by
  refine ⟨rfl, present, f, ?_, .inl ⟨looked.foundIn_id hf, looked.unchanged⟩⟩
  rw [applyTo_component changed]
  change d.id.or existing.component.id = some f
  rw [existingId_ok hf]
  cases hid : d.id with
  | none => rfl
  | some i =>
    obtain ⟨c, honest, same⟩ := looked.given existing rfl i hid
    have same := (existingId_ok hf).symm.trans (same.trans honest)
    rw [Option.some_or, same]

theorem conclude_keeps (looked : Looked Honest d past before)
    (changed : Changeset.of d before = .ok changes) :
    (conclude d mode before changes).Keeps Honest (InScope d) (fun _ _ => True) past := by
  have reads := allowsReading_inScope d
  unfold conclude
  cases before with
  | none =>
    cases present : d.state with
    | absent => trivial
    | present =>
      refine create_keeps reads looked ⟨rfl, present⟩ ?_
      intro f defaults plan past' planned shown _ a ha
      exact permits_action present (planAfterCreation_addresses planned a ha) shown
  | some existing =>
    cases state : d.state with
    | absent =>
      refine delete_keeps fun f hf => ⟨rfl, ?_⟩
      simp only [Permits, state]
      exact ⟨looked.foundIn_id hf, looked.unchanged⟩
    | present =>
      refine update_keeps reads looked (fun f hf => permits_update looked state changed hf) ?_
      exact fun f past' shown _ a ha => permits_action state (planUpdate_addresses a ha) shown

/-- A run keeps to the realm of its declaration, to its federation and to the mappers that were
listed below it. -/
theorem reconcile_keeps (d : Declaration) (mode : RunMode) :
    (reconcile d mode).Keeps Honest (InScope d) (fun _ _ => True) [] := by
  rw [reconcile_eq]
  exact Keeps.bind (survey_keeps (allowsReading_inScope d))
    fun _ _ ⟨looked, changed⟩ => conclude_keeps looked changed

variable {σ : Type}

/-- What a run may touch. Every call is about the realm of the declaration. Where the federation has
to be present, a deletion is of a mapper that was listed below it before, and an update is of such a
mapper or, as the first change, of the federation that was found; where it has to be absent, a
change is the deletion of the federation that was found, and the only one. -/
theorem calls_stay_in_scope (service : Service σ) (s : σ) (d : Declaration) (mode : RunMode)
    (honest : ∀ id realm c, ⟨.get id realm, .ok (some c)⟩ ∈
      (reconcile d mode).exchanges service s → c.id = some id) :
    let xs := (reconcile d mode).exchanges service s
    ((reconcile d mode).runLogged service s).2.2 = xs.map (·.call) ∧
      ∀ past x future, xs = past ++ x :: future →
        x.call.realm = d.realm ∧
        (d.state = .present →
          (∀ i realm, x.call = .delete i realm → Listed d.realm past i) ∧
          ∀ c realm, x.call = .update c realm → ∃ i, c.id = some i ∧
            ((foundIn past).bind (·.id) = some i ∧ Unchanged past ∨ Listed d.realm past i)) ∧
        (d.state = .absent → x.call.isMutation = true →
          ∃ f, x.call = .delete f d.realm ∧ (foundIn past).bind (·.id) = some f ∧
            Unchanged past) := by
  refine ⟨by rw [runLogged_eq], fun past x future split => ?_⟩
  have kept := (reconcile_keeps d mode).exchanges (fun call reply member => ?_) split
  · rw [List.nil_append] at kept
    obtain ⟨realm, permits⟩ := kept
    refine ⟨realm, fun present => ⟨fun i r hx => ?_, fun c r hx => ?_⟩, fun absent mutates => ?_⟩
    · rw [hx] at permits
      simpa only [Permits, present] using permits
    · rw [hx] at permits
      exact permits.2
    · cases hx : x.call with
      | find | get | children =>
        rw [hx] at mutates
        cases mutates
      | create c r =>
        rw [hx] at permits
        cases absent.symm.trans permits
      | update c r =>
        rw [hx] at permits
        cases absent.symm.trans permits.1
      | delete i r =>
        rw [hx] at permits realm
        simp only [Permits, absent] at permits
        exact ⟨i, by rw [← realm]; rfl, permits⟩
  · cases call with
    | get id realm =>
      cases reply with
      | none => trivial
      | some c => exact honest id realm c member
    | find | create | update | delete | children => trivial

end Reconcile

namespace Server.Sample

/-- A federation that has to be absent. -/
def unwanted : Declaration := { id := some "people", state := .absent }

/-- The federation is found with one mapper, and deleted. -/
def unwantedFound : Script :=
  [.component people, .components [{ mail with id := some "mail" }], .nothing]

end Server.Sample

open Dialogue Server.Sample in
theorem Reconcile.unwanted_stays_in_scope :
    let xs := (reconcile unwanted {}).exchanges Script.answer unwantedFound
    xs = [⟨.get "people" "master", .ok (some people)⟩,
      ⟨.children "people" "master", .ok [{ mail with id := some "mail" }]⟩,
      ⟨.delete "people" "master", .ok ()⟩] ∧
    ((reconcile unwanted {}).runLogged Script.answer unwantedFound).2.2 = xs.map (·.call) ∧
      ∀ past x future, xs = past ++ x :: future →
        x.call.realm = unwanted.realm ∧
        (unwanted.state = .present →
          (∀ i realm, x.call = .delete i realm → Listed unwanted.realm past i) ∧
          ∀ c realm, x.call = .update c realm → ∃ i, c.id = some i ∧
            ((foundIn past).bind (·.id) = some i ∧ Unchanged past ∨
              Listed unwanted.realm past i)) ∧
        (unwanted.state = .absent → x.call.isMutation = true →
          ∃ f, x.call = .delete f unwanted.realm ∧ (foundIn past).bind (·.id) = some f ∧
            Unchanged past) := by
  have exchanged : (reconcile unwanted {}).exchanges Script.answer unwantedFound =
      [⟨.get "people" "master", .ok (some people)⟩,
        ⟨.children "people" "master", .ok [{ mail with id := some "mail" }]⟩,
        ⟨.delete "people" "master", .ok ()⟩] := rfl
  refine ⟨exchanged, calls_stay_in_scope _ _ _ _ fun id realm c member => ?_⟩
  rw [exchanged] at member
  simp only [List.mem_cons, Exchange.mk.injEq, Call.get.injEq, reduceCtorEq, false_and, or_false,
    List.not_mem_nil] at member
  obtain ⟨⟨rfl, rfl⟩, found⟩ := member
  cases found
  rfl

end UserFederation
