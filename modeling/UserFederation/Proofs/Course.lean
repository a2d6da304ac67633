import UserFederation.Proofs.Survey

/-! The order of the calls of a run. `course` says which calls a run that makes the changes has to
make, from a declaration and the answers so far: one lookup, the mappers of the federation that was
found, and then the calls of one way. `course_followed` says that a run makes just these calls, and
that it stops at the first one that fails. -/

namespace UserFederation

open Dialogue

/-! ### Following a course -/

/-- Whether a call was answered with a reply. -/
def Exchange.replied (x : Exchange) : Bool := x.answer.isOk

namespace Dialogue

variable {α σ : Type} {service : Service σ}

/-- Whatever the replies, a program makes the calls that a course gives for the exchanges so far. -/
def Follows : Dialogue α → (List Exchange → List Call) → Prop
  | .done _, course => course [] = []
  | .fail _, _ => True
  | .ask call next, course =>
    (∀ xs, (course xs).head? = some call) ∧
      ∀ reply, (next reply).Follows fun xs => (course (⟨call, .ok reply⟩ :: xs)).tail

theorem Follows.ask {call : Call} {next : call.Reply → Dialogue α}
    {course : List Exchange → List Call} {after : call.Reply → List Exchange → List Call}
    (first : ∀ xs, (course xs).head? = some call)
    (step : ∀ reply xs, course (⟨call, .ok reply⟩ :: xs) = call :: after reply xs)
    (rest : ∀ reply, (next reply).Follows (after reply)) : (ask call next).Follows course := by
  refine ⟨first, fun reply => ?_⟩
  have tails : (fun xs => (course (⟨call, .ok reply⟩ :: xs)).tail) = after reply := by
    funext xs
    rw [step reply xs, List.tail_cons]
  rw [tails]
  exact rest reply

/-- The calls of a run are a prefix of its course, however the replies so far may go on. -/
theorem Follows.calls_prefix {p : Dialogue α} {course : List Exchange → List Call}
    (h : p.Follows course) {s : σ} {xs : List Exchange}
    (hxs : (p.exchanges service s).filter Exchange.replied <+: xs) :
    (p.exchanges service s).map (·.call) <+: course xs := by
  induction p generalizing course s xs with
  | done | fail => exact List.nil_prefix
  | ask call next ih =>
    obtain ⟨first, step⟩ := h
    obtain ⟨calls, hcalls⟩ := List.head?_eq_some_iff.mp (first xs)
    rw [exchanges_ask] at hxs ⊢
    rcases hc : service call s with ⟨e | reply, s'⟩ <;> simp only [hc] at hxs ⊢
    · simp [hcalls]
    · rw [List.filter_cons_of_pos rfl] at hxs
      obtain ⟨ys, rfl⟩ := hxs
      have tail := ih reply (step reply) (s := s') (List.prefix_append _ ys)
      rw [List.cons_append] at hcalls ⊢
      rw [hcalls, List.tail_cons] at tail
      rw [hcalls, List.map_cons]
      exact List.cons_prefix_cons.mpr ⟨rfl, tail⟩

/-- A run that succeeds makes all calls of its course. -/
theorem Follows.calls_eq {p : Dialogue α} {course : List Exchange → List Call}
    (h : p.Follows course) {s : σ} {a : α} (succeeds : (p.run service s).1 = .ok a) :
    (p.exchanges service s).map (·.call) = course (p.exchanges service s) := by
  induction p generalizing course s with
  | done => exact h.symm
  | fail => cases succeeds
  | ask call next ih =>
    obtain ⟨first, step⟩ := h
    rw [exchanges_ask]
    rw [run_ask] at succeeds
    rcases hc : service call s with ⟨e | reply, s'⟩ <;> simp only [hc] at succeeds ⊢
    · cases succeeds
    · have tail := ih reply (step reply) succeeds
      obtain ⟨calls, hcalls⟩ := List.head?_eq_some_iff.mp
        (first (⟨call, .ok reply⟩ :: (next reply).exchanges service s'))
      rw [hcalls, List.tail_cons] at tail
      rw [hcalls, List.map_cons, tail]

theorem follows_execute_bind {realm : String} {plan : List Mapper.Action}
    {f : Unit → Dialogue α} (course : List Exchange → List Call) (h : (f ()).Follows course) :
    ((Mapper.execute realm plan).bind f).Follows fun xs =>
      plan.map (·.call realm) ++ course (xs.drop plan.length) := by
  induction plan with
  | nil => exact h
  | cons action plan ih => exact Follows.ask (fun _ => rfl) (fun _ _ => rfl) fun _ => ih

end Dialogue

/-! ### The course of a run -/

namespace Exchange

/-- What a lookup found, if it was answered. -/
def found? : Exchange → Option (Option Component)
  | ⟨.get .., .ok reply⟩ => some reply
  | ⟨.find _ _ name, .ok reply⟩ => (Component.unique .federation name reply).toOption
  | _ => none

/-- What a listing showed, if it was answered. -/
def listed? : Exchange → Option (List Component)
  | ⟨.children .., .ok reply⟩ => some reply
  | _ => none

/-- What was created, if a creation was answered. -/
def created? : Exchange → Option Component
  | ⟨.create .., .ok reply⟩ => some reply
  | _ => none

end Exchange

namespace Reconcile

/-- The call that looks for the federation of a declaration: by its id if it gives one, else by its
name. -/
def lookupCalls (d : Declaration) : List Call :=
  match d.id, d.name with
  | some id, _ => [.get id d.realm]
  | none, some name => [.find d.realm federationType name]
  | none, none => []

/-- The calls that create a federation and see to its mappers; `xs` begins with the creation. -/
def creationCalls (d : Declaration) (desired : Federation) (xs : List Exchange) : List Call :=
  .create desired.component d.realm ::
    match (xs[0]?.bind Exchange.created?).bind (·.id) with
    | none => []
    | some id => .children id d.realm ::
      match xs[1]?.bind Exchange.listed? with
      | none => []
      | some defaults =>
        match Mapper.planAfterCreation desired.mappers defaults id d.prune with
        | .error _ => []
        | .ok plan => plan.map (·.call d.realm) ++ [.children id d.realm]

/-- The calls that update a federation and its mappers, none if it is as it has to be. -/
def updateCalls (d : Declaration) (id : String) (desired existing : Federation) : List Call :=
  if desired.needsUpdate existing d.credentialPolicy then
    .update desired.component d.realm ::
      ((Mapper.planUpdate desired.mappers existing.mappers id).map (·.call d.realm) ++
        [.get id d.realm, .children id d.realm])
  else []

/-- The calls of the way that a run goes once it knows the federation; `xs` begins with the first
of them. -/
def wayCalls (d : Declaration) (before : Option Federation) (xs : List Exchange) : List Call :=
  match Changeset.of d before with
  | .error _ => []
  | .ok changes =>
    match before, before.bind Federation.id, d.state with
    | none, _, .absent => []
    | none, _, .present => creationCalls d (changes.applyTo before) xs
    | some _, none, _ => []
    | some _, some id, .absent => [.delete id d.realm]
    | some existing, some id, .present => updateCalls d id (changes.applyTo before) existing

/-- The calls of a run after its lookup; `xs` begins with the first of them. -/
def foundCalls (d : Declaration) (found : Option Component) (xs : List Exchange) : List Call :=
  match found with
  | none => wayCalls d none xs
  | some component =>
    match component.id with
    | none => []
    | some id => .children id d.realm ::
      match xs[0]?.bind Exchange.listed? with
      | none => []
      | some mappers =>
        let found := Federation.ofParts component (Component.sortByName mappers)
        wayCalls d (some found.undoEcho) (xs.drop 1)

/-- The calls that a run has to make, as far as the exchanges so far determine them. -/
def course (d : Declaration) (xs : List Exchange) : List Call :=
  lookupCalls d ++
    match xs[0]?.bind Exchange.found? with
    | none => []
    | some found => foundCalls d found (xs.drop 1)

/-! ### Every way follows its calls -/

theorem create_follows (d : Declaration) (diff : Bool) (desired : Federation)
    (outcome : Outcome) :
    (create d { diff } desired outcome).Follows (creationCalls d desired) := by
  refine Follows.ask (fun _ => rfl) (fun _ _ => rfl) fun created => ?_
  simp only [List.getElem?_cons_zero, List.getElem?_cons_succ, Option.bind_some,
    Exchange.created?, done_bind, bind_eq]
  cases created.id with
  | none => trivial
  | some id =>
    simp only [call, ask_bind, done_bind]
    refine Follows.ask (fun _ => rfl) (fun _ _ => rfl) fun defaults => ?_
    simp only [List.getElem?_cons_zero, Option.bind_some, Exchange.listed?]
    cases Mapper.planAfterCreation desired.mappers defaults id d.prune with
    | error e => trivial
    | ok plan =>
      refine follows_execute_bind (fun _ => [.children id d.realm]) ?_
      exact Follows.ask (fun _ => rfl) (fun _ _ => rfl) fun _ => rfl

theorem update_follows (d : Declaration) (diff : Bool) (existing desired : Federation)
    (outcome : Outcome) {id : String} (hid : existing.id = some id) :
    (update d { diff } existing desired outcome).Follows
      fun _ => updateCalls d id desired existing := by
  have found : existing.component.existingId = .ok id := by
    rw [Component.existingId, show existing.component.id = some id from hid]
  unfold update updateCalls
  rw [found]
  cases desired.needsUpdate existing d.credentialPolicy with
  | false => exact rfl
  | true =>
    refine Follows.ask (fun _ => rfl) (fun _ _ => rfl) fun _ => ?_
    refine follows_execute_bind (fun _ => [.get id d.realm, .children id d.realm]) ?_
    refine Follows.ask (fun _ => rfl) (fun _ _ => rfl) fun refreshed => ?_
    simp only [done_bind]
    cases refreshed with
    | none => trivial
    | some refreshed => exact Follows.ask (fun _ => rfl) (fun _ _ => rfl) fun _ => rfl

/-- The second half of a run follows the calls of its way. -/
theorem conclude_follows (d : Declaration) (diff : Bool) (before : Option Federation)
    (changes : Changeset) (hc : Changeset.of d before = .ok changes) :
    (conclude d { diff } before changes).Follows (wayCalls d before) := by
  unfold conclude wayCalls
  simp only [hc]
  cases before with
  | none =>
    cases d.state with
    | absent => rfl
    | present => exact create_follows d diff _ _
  | some existing =>
    simp only [Option.bind_some]
    cases hid : existing.id with
    | none =>
      have missing : existing.component.existingId = .error (.remote .existingWithoutId) := by
        rw [Component.existingId, show existing.component.id = none from hid]
      cases d.state <;> simp [delete, update, missing] <;> trivial
    | some id =>
      cases d.state with
      | present => exact update_follows d diff existing _ _ hid
      | absent =>
        have found : existing.component.existingId = .ok id := by
          rw [Component.existingId, show existing.component.id = some id from hid]
        simp only [delete, found]
        exact Follows.ask (fun _ => rfl) (fun _ _ => rfl) fun _ => rfl

theorem change_follows (d : Declaration) (diff : Bool) (before : Option Federation) :
    ((lift (Changeset.of d before)).bind fun changes =>
      conclude d { diff } before changes).Follows (wayCalls d before) := by
  cases hc : Changeset.of d before with
  | error e => trivial
  | ok changes => exact conclude_follows d diff before changes hc

theorem wayCalls_of_id_none (d : Declaration) {existing : Federation} (hid : existing.id = none) :
    wayCalls d (some existing) = fun _ => [] := by
  funext xs
  unfold wayCalls
  cases Changeset.of d (some existing) <;> simp [hid]

theorem found_follows (d : Declaration) (diff : Bool) (found : Option Component) :
    ((match found with
      | none => (.done none : Dialogue (Option Federation))
      | some component =>
        match component.id with
        | none => .done (some (.ofParts component []))
        | some id => (Federation.fetchMappers d.realm id).bind fun mappers =>
          .done (some (.ofParts component mappers))).bind fun found =>
      (lift (Changeset.of d (found.map Federation.undoEcho))).bind fun changes =>
        conclude d { diff } (found.map Federation.undoEcho) changes).Follows
      (foundCalls d found) := by
  cases found with
  | none => exact change_follows d diff none
  | some component =>
    change Follows _ fun xs => foundCalls d (some component) xs
    cases hid : component.id with
    | none =>
      simp only [foundCalls, hid]
      rw [← wayCalls_of_id_none d (show (Federation.ofParts component []).undoEcho.id = none from hid)]
      exact change_follows d diff _
    | some id =>
      simp only [foundCalls, hid, Federation.fetchMappers, call, bind_eq, pure_eq_done, ask_bind,
        done_bind]
      refine Follows.ask (fun _ => rfl) (fun _ _ => rfl) fun mappers => ?_
      exact change_follows d diff _

/-- A run that makes the changes follows its course. -/
theorem reconcile_follows (d : Declaration) (diff : Bool) :
    (reconcile d { diff }).Follows (course d) := by
  rw [reconcile_eq]
  simp only [survey, Federation.resolve, bind_assoc, done_bind, bind_eq, pure_eq_done]
  cases d.validate with
  | error e => trivial
  | ok _ =>
    unfold course lookupCalls Federation.lookup
    cases d.id with
    | some id =>
      exact Follows.ask (fun _ => rfl) (fun _ _ => rfl) fun found => found_follows d diff found
    | none =>
      cases d.name with
      | none => trivial
      | some name =>
        refine Follows.ask (fun _ => rfl) (fun _ _ => rfl) fun listed => ?_
        simp only [List.getElem?_cons_zero, Option.bind_some, Exchange.found?, done_bind]
        cases Component.unique .federation name listed with
        | error e => trivial
        | ok found => exact found_follows d diff found

/-! ### Every call is about the realm of the declaration -/

theorem plan_calls_realm (realm : String) (plan : List Mapper.Action) :
    ∀ call ∈ plan.map (·.call realm), call.realm = realm := by
  intro call member
  obtain ⟨action, -, rfl⟩ := List.mem_map.mp member
  cases action <;> rfl

theorem lookupCalls_realm (d : Declaration) : ∀ call ∈ lookupCalls d, call.realm = d.realm := by
  unfold lookupCalls
  split <;> simp [Call.realm]

theorem creationCalls_realm (d : Declaration) (desired : Federation) (xs : List Exchange) :
    ∀ call ∈ creationCalls d desired xs, call.realm = d.realm := by
  unfold creationCalls
  refine List.forall_mem_cons.mpr ⟨rfl, ?_⟩
  split
  · simp
  · refine List.forall_mem_cons.mpr ⟨rfl, ?_⟩
    split
    · simp
    · split
      · simp
      · refine List.forall_mem_append.mpr ⟨plan_calls_realm _ _, ?_⟩
        simp [Call.realm]

theorem updateCalls_realm (d : Declaration) (id : String) (desired existing : Federation) :
    ∀ call ∈ updateCalls d id desired existing, call.realm = d.realm := by
  unfold updateCalls
  split
  · refine List.forall_mem_cons.mpr ⟨rfl, ?_⟩
    refine List.forall_mem_append.mpr ⟨plan_calls_realm _ _, ?_⟩
    simp [Call.realm]
  · simp

theorem wayCalls_realm (d : Declaration) (before : Option Federation) (xs : List Exchange) :
    ∀ call ∈ wayCalls d before xs, call.realm = d.realm := by
  unfold wayCalls
  split
  · simp
  · split
    · simp
    · exact creationCalls_realm _ _ _
    · simp
    · simp [Call.realm]
    · exact updateCalls_realm _ _ _ _

theorem foundCalls_realm (d : Declaration) (found : Option Component) (xs : List Exchange) :
    ∀ call ∈ foundCalls d found xs, call.realm = d.realm := by
  unfold foundCalls
  split
  · exact wayCalls_realm _ _ _
  · split
    · simp
    · refine List.forall_mem_cons.mpr ⟨rfl, ?_⟩
      split
      · simp
      · exact wayCalls_realm _ _ _

theorem course_realm (d : Declaration) (xs : List Exchange) :
    ∀ call ∈ course d xs, call.realm = d.realm := by
  unfold course
  refine List.forall_mem_append.mpr ⟨lookupCalls_realm d, ?_⟩
  split
  · simp
  · exact foundCalls_realm _ _ _

variable {σ : Type}

/-- The calls of a run that makes the changes: they are a prefix of its course, and all of it if the
run succeeds; all are about the realm of the declaration; and one that fails is the last, and the
run fails as it does. -/
theorem calls_follow_course (service : Service σ) (s : σ) (d : Declaration) (diff : Bool) :
    let run := reconcile d { dryRun := false, diff }
    let xs := run.exchanges service s
    let calls := (run.runLogged service s).2.2
    calls = xs.map (·.call) ∧
      (∀ ys, xs.filter Exchange.replied <+: ys → calls <+: course d ys) ∧
      (∀ outcome, (run.runLogged service s).1 = .ok outcome → calls = course d xs) ∧
      (∀ call ∈ calls, call.realm = d.realm) ∧
      ∀ before x after e, xs = before ++ x :: after → x.answer = .error e →
        after = [] ∧ (run.runLogged service s).1 = .error e := by
  have follows := reconcile_follows d diff
  simp only [runLogged_eq]
  refine ⟨trivial, fun ys hys => follows.calls_prefix hys, fun o ho => follows.calls_eq ho,
    fun call member => ?_, fun before x after e hxs hx => answer_error_last hxs hx⟩
  exact course_realm d _ call ((follows.calls_prefix List.prefix_rfl).subset member)

end Reconcile

end UserFederation
