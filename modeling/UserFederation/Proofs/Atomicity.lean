import UserFederation.Proofs.Effects

/-! Changes that fail leave nothing behind. `InPlace` makes the changes of a server one after
another, without taking anything back, and still does what the server does (`answer_inPlace`): no
change fails once it has stored or noted something. How a server is set up outlives every call, but
for a failure that was due to one of its kind (`answer_frame`, `answer_failNext`). -/

namespace UserFederation

namespace Server

variable {supply : Supply} {s s' : Server} {realm id : String} {c : Component}

/-! ### Changes in place -/

/-- A change that is made in place: if it fails, what it has done until then stays. -/
abbrev InPlace := EStateM Failure Server

namespace InPlace

/-- How a change ends, and the server that it leaves. -/
def perform {α : Type} (change : InPlace α) (s : Server) : Except Failure α × Server :=
  match change.run s with
  | .ok a s => (.ok a, s)
  | .error e s => (.error e, s)

/-- Fails if a change of the kind is due to fail, and then no further one is. -/
def checkFailure (kind : MutationKind) : InPlace Unit := do
  if (← getThe Server).failNext = some kind then
    modify fun s => { s with failNext := none }
    throw (refusal 500 ("injected " ++ kind.title ++ " failure"))

def create (supply : Supply) (c : Component) (realm : String) : InPlace Component := do
  checkFailure .create
  let accepted ← modifyGet fun s => s.stamp supply (s.accept none c)
  let id ← modifyGet fun s => s.put supply realm accepted
  modify fun s => s.provision supply realm id ((c.providerId.bind s.defaults.get?).getD [])
  match (← getThe Server).components.get? id with
  | none => throw (.notFound .federation id)
  | some created =>
    modify fun s => s.record .create created.component
    return redact created.component

def update (supply : Supply) (c : Component) (realm : String) : InPlace Unit := do
  checkFailure .update
  match c.id with
  | none => throw (refusal 400 "component id is required")
  | some id =>
    match (← getThe Server).stored? id realm with
    | none => throw (missing id)
    | some previous =>
      let accepted := (← getThe Server).accept (some previous.component) c
      let accepted ←
        if (previous.component.configValue? lastSyncKey).isSome then
          modifyGet fun s => s.stamp supply accepted
        else pure accepted
      let accepted := { accepted with
        parentId := accepted.parentId.or previous.component.parentId }
      modify fun s => s.record .update accepted
      modify fun s => { s with
        components := s.components.insert id { previous with component := accepted } }

def delete (id realm : String) : InPlace Unit := do
  checkFailure .delete
  match (← getThe Server).stored? id realm with
  | none => throw (missing id)
  | some removed =>
    ((← getThe Server).descendants id).forM fun child =>
      modify fun s => { s with components := s.components.erase child }
    modify fun s => { s with components := s.components.erase id }
    modify fun s => s.record .delete removed.component

/-- Answers a call. -/
def answer (supply : Supply) : (call : Call) → InPlace call.Reply
  | .find realm type name => do return (← getThe Server).find realm type name
  | .get id realm => do return (← getThe Server).get id realm
  | .create c realm => create supply c realm
  | .update c realm => update supply c realm
  | .delete id realm => delete id realm
  | .children parent realm => do return (← getThe Server).children parent realm

end InPlace

/-- What an attempt comes to if no change of its kind is due to fail. -/
def outcome {α : Type} (s : Server) (change : Except Failure (α × Server)) :
    Except Failure α × Server :=
  match change with
  | .ok (a, s') => (.ok a, s')
  | .error e => (.error e, s)

namespace InPlace

variable {α β : Type}

theorem perform_bind (change : InPlace α) (next : α → InPlace β) (s : Server) :
    (change >>= next).perform s =
      match change.perform s with
      | (.ok a, s') => (next a).perform s'
      | (.error e, s') => (.error e, s') := by
  simp only [perform, EStateM.run, bind, EStateM.bind]
  cases change s <;> rfl

@[simp] theorem perform_get_bind (next : Server → InPlace β) (s : Server) :
    (getThe Server >>= next).perform s = (next s).perform s := rfl

@[simp] theorem perform_modify_bind (f : Server → Server) (next : PUnit → InPlace β) (s : Server) :
    ((modify f : InPlace PUnit) >>= next).perform s = (next ⟨⟩).perform (f s) := rfl

@[simp] theorem perform_modifyGet_bind (f : Server → α × Server) (next : α → InPlace β)
    (s : Server) :
    ((modifyGet f : InPlace α) >>= next).perform s = (next (f s).1).perform (f s).2 := rfl

@[simp] theorem perform_modify (f : Server → Server) (s : Server) :
    (modify f : InPlace PUnit).perform s = (.ok ⟨⟩, f s) := rfl

/-- A change that starts with the check is an attempt at what comes then. -/
theorem perform_checkFailure_bind {kind : MutationKind} {next : Unit → InPlace α}
    {change : Except Failure (α × Server)} (same : (next ()).perform s = s.outcome change) :
    (checkFailure kind >>= next).perform s = s.attempt kind change := by
  rw [perform_bind, checkFailure, perform_get_bind]
  unfold attempt
  by_cases due : s.failNext = some kind
  · rw [if_pos due, if_pos due]
    rfl
  · rw [if_neg due, if_neg due]
    exact same

theorem perform_create (supply : Supply) (c : Component) (realm : String) (s : Server) :
    (create supply c realm).perform s = s.create supply c realm := by
  refine perform_checkFailure_bind ?_
  simp only [perform_modifyGet_bind, perform_modify_bind, perform_get_bind]
  obtain ⟨e, stored⟩ := exists_established supply s c realm
  simp only [establish] at stored
  simp only [stored]
  rfl

theorem perform_update (supply : Supply) (c : Component) (realm : String) (s : Server) :
    (update supply c realm).perform s = s.update supply c realm := by
  refine perform_checkFailure_bind ?_
  cases c.id with
  | none => rfl
  | some id =>
    simp only [perform_get_bind]
    cases s.stored? id realm with
    | none => rfl
    | some previous =>
      simp only
      split <;> rfl

theorem get?_foldl_erase (ids : List String) (m : SortedMap Stored) (id : String) :
    (ids.foldl SortedMap.erase m).get? id = if id ∈ ids then none else m.get? id := by
  induction ids generalizing m with
  | nil => rw [List.foldl_nil, if_neg List.not_mem_nil]
  | cons first ids ih =>
    rw [List.foldl_cons, ih, SortedMap.get?_erase]
    grind

/-- What is left after ids were erased one after another is what none of them names. -/
theorem foldl_erase (ids : List String) (last : String) (m : SortedMap Stored) :
    (ids.foldl SortedMap.erase m).erase last = m.filter fun id _ => !(last :: ids).contains id := by
  refine SortedMap.ext_get? fun id => ?_
  rw [SortedMap.get?_erase, get?_foldl_erase, SortedMap.get?_filter_key]
  grind

theorem perform_forM_erase (ids : List String) (next : PUnit → InPlace β) (s : Server) :
    ((ids.forM fun id => modify fun s : Server => { s with components := s.components.erase id }) >>=
      next).perform s =
      (next ⟨⟩).perform { s with components := ids.foldl SortedMap.erase s.components } := by
  induction ids generalizing s with
  | nil => rfl
  | cons id ids ih => exact ih _

theorem perform_delete (id realm : String) (s : Server) :
    (delete id realm).perform s = s.delete id realm := by
  refine perform_checkFailure_bind ?_
  simp only [perform_get_bind]
  cases s.stored? id realm with
  | none => rfl
  | some removed =>
    simp only [perform_get_bind, perform_forM_erase, perform_modify_bind, perform_modify, outcome]
    rw [← foldl_erase]

/-- Calls can be answered in place: none fails once it has stored or noted something. -/
theorem answer_inPlace (supply : Supply) (call : Call) (s : Server) :
    (InPlace.answer supply call).perform s = Server.answer supply call s := by
  cases call with
  | find | get | children => rfl
  | create c realm => exact perform_create supply c realm s
  | update c realm => exact perform_update supply c realm s
  | delete id realm => exact perform_delete id realm s

end InPlace

/-! ### What a call leaves -/

theorem provision_frame (supply : Supply) (s : Server) (realm parent : String)
    (mappers : List Component) : Frame s (s.provision supply realm parent mappers) ∧
      (s.provision supply realm parent mappers).journal = s.journal := by
  induction mappers generalizing s with
  | nil => exact ⟨.refl s, rfl⟩
  | cons m mappers ih =>
    rw [provision_cons]
    obtain ⟨frame, journal⟩ := ih (s.put supply realm { m with parentId := some parent }).2
    exact ⟨(put_frame ..).trans frame, journal⟩

theorem establish_frame (supply : Supply) (s : Server) (c : Component) (realm : String) :
    Frame s (s.establish supply c realm).2 ∧ (s.establish supply c realm).2.journal = s.journal := by
  obtain ⟨n, y, -, whole⟩ := establish_eq supply s c realm
  have timed : Frame s { s with timesIssued := n } := ⟨rfl, rfl, rfl, Nat.le_refl _⟩
  obtain ⟨provisioned, kept⟩ := provision_frame supply
    (put supply { s with timesIssued := n } realm y).2 realm _ (s.provided c)
  rw [whole]
  exact ⟨timed.trans ((put_frame ..).trans provisioned), kept⟩

/-- A call that succeeds leaves a server set up as it is. -/
theorem answer_frame {call : Call} {reply : call.Reply}
    (h : answer supply call s = (.ok reply, s')) : Frame s s' := by
  cases call with
  | find | get | children =>
    cases h
    exact .refl s
  | create c realm =>
    obtain ⟨e, -, -, rfl⟩ := create_ok h
    exact (establish_frame supply s c realm).1.trans (record_frame _ _ _)
  | update c realm =>
    obtain ⟨_, _, _, -, -, -, -, frame, -⟩ := update_entry h
    exact frame
  | delete id realm => exact (delete_entry h).frame

theorem answer_defaults (supply : Supply) (s : Server) (call : Call) :
    (answer supply call s).2.defaults = s.defaults := by
  rcases h : answer supply call s with ⟨e | reply, s'⟩
  · rw [answer_error h]
  · exact (answer_frame h).defaults

/-- Only a call of its kind takes a failure that is due. -/
theorem answer_failNext (supply : Supply) (call : Call) (s : Server) :
    (answer supply call s).2.failNext = dueAfter call.kind? s.failNext := by
  rcases h : answer supply call s with ⟨e | reply, s'⟩
  · rw [answer_error h]
  · refine (answer_frame h).failNext.trans ?_
    cases call with
    | find | get | children => exact (ite_eq_right_iff.mpr Eq.symm).symm
    | create | update | delete => exact (unarmed_of_attempt h).symm

end Server

end UserFederation
