import UserFederation.Run.Dialogue

/-! What a program says to a service and hears from it. `exchanges` lists the calls of a run with
their answers, in order. The parts of a program speak one after another (`exchanges_bind`), and a
call that fails is the last one (`answer_error_last`). -/

namespace UserFederation

/-- A call and its answer. -/
structure Exchange where
  call : Call
  answer : Except Failure call.Reply

namespace Dialogue

variable {α β γ σ : Type} {service : Service σ}

@[simp] theorem pure_eq_done (a : α) : (pure a : Dialogue α) = .done a := rfl

@[simp] theorem throw_eq_fail (e : Failure) : (throw e : Dialogue α) = .fail e := rfl

@[simp] theorem bind_eq (p : Dialogue α) (f : α → Dialogue β) : p >>= f = p.bind f := rfl

@[simp] theorem done_bind (a : α) (f : α → Dialogue β) : (done a).bind f = f a := rfl

@[simp] theorem fail_bind (e : Failure) (f : α → Dialogue β) : (fail e).bind f = fail e := rfl

@[simp] theorem ask_bind (c : Call) (next : c.Reply → Dialogue α) (f : α → Dialogue β) :
    (ask c next).bind f = ask c fun reply => (next reply).bind f := rfl

theorem bind_assoc (p : Dialogue α) (f : α → Dialogue β) (g : β → Dialogue γ) :
    (p.bind f).bind g = p.bind fun a => (f a).bind g := by
  induction p with
  | done | fail => rfl
  | ask c next ih => simp only [ask_bind, ih]

/-! ### Runs -/

@[simp] theorem run_done (a : α) (s : σ) : (done a).run service s = (.ok a, s) := rfl

@[simp] theorem run_fail (e : Failure) (s : σ) :
    (fail e : Dialogue α).run service s = (.error e, s) := rfl

@[simp] theorem run_lift (x : Except Failure α) (s : σ) : (lift x).run service s = (x, s) := by
  cases x <;> rfl

theorem run_ask (c : Call) (next : c.Reply → Dialogue α) (s : σ) :
    (ask c next).run service s =
      match service c s with
      | (.ok reply, s') => (next reply).run service s'
      | (.error e, s') => (.error e, s') := by
  rcases hc : service c s with ⟨_ | _, _⟩ <;> simp only [run, hc]

@[simp] theorem run_call (c : Call) (s : σ) : (call c).run service s = service c s := by
  simp only [call, run_ask]
  rcases service c s with ⟨_ | _, _⟩ <;> rfl

/-- A program runs its first part, and goes on where that succeeds. -/
theorem run_bind (p : Dialogue α) (f : α → Dialogue β) (s : σ) :
    (p.bind f).run service s =
      match p.run service s with
      | (.ok a, s') => (f a).run service s'
      | (.error e, s') => (.error e, s') := by
  induction p generalizing s with
  | done | fail => rfl
  | ask c next ih =>
    simp only [ask_bind, run_ask]
    rcases service c s with ⟨_ | reply, s'⟩
    · rfl
    · exact ih reply s'

/-! ### Transcripts -/

/-- The calls that a program makes to a service, with their answers, in order. -/
def exchanges (service : Service σ) : Dialogue α → σ → List Exchange
  | .done _, _ | .fail _, _ => []
  | .ask call next, s => ⟨call, (service call s).1⟩ ::
    match service call s with
    | (.ok reply, s) => (next reply).exchanges service s
    | (.error _, _) => []

@[simp] theorem exchanges_done (a : α) (s : σ) : (done a).exchanges service s = [] := rfl

@[simp] theorem exchanges_fail (e : Failure) (s : σ) :
    (fail e : Dialogue α).exchanges service s = [] := rfl

@[simp] theorem exchanges_lift (x : Except Failure α) (s : σ) :
    (lift x).exchanges service s = [] := by
  cases x <;> rfl

theorem exchanges_ask (c : Call) (next : c.Reply → Dialogue α) (s : σ) :
    (ask c next).exchanges service s = ⟨c, (service c s).1⟩ ::
      match service c s with
      | (.ok reply, s') => (next reply).exchanges service s'
      | (.error _, _) => [] := by
  rw [exchanges]

@[simp] theorem exchanges_call (c : Call) (s : σ) :
    (call c).exchanges service s = [⟨c, (service c s).1⟩] := by
  simp only [call, exchanges_ask]
  rcases service c s with ⟨_ | _, _⟩ <;> rfl

/-- The parts of a program speak one after another. -/
theorem exchanges_bind (p : Dialogue α) (f : α → Dialogue β) (s : σ) :
    (p.bind f).exchanges service s = p.exchanges service s ++
      match p.run service s with
      | (.ok a, s') => (f a).exchanges service s'
      | (.error _, _) => [] := by
  induction p generalizing s with
  | done | fail => rfl
  | ask c next ih =>
    simp only [ask_bind, exchanges_ask, run_ask, List.cons_append]
    rcases service c s with ⟨_ | reply, s'⟩
    · rfl
    · simp only [ih reply s']

/-- The log of a run holds the calls of its transcript. -/
theorem runLogged_eq (p : Dialogue α) (s : σ) :
    p.runLogged service s =
      ((p.run service s).1, (p.run service s).2, (p.exchanges service s).map (·.call)) := by
  have key : ∀ (p : Dialogue α) (s : σ) (calls : List Call),
      p.run service.logged (s, calls) = ((p.run service s).1, (p.run service s).2,
        calls ++ (p.exchanges service s).map (·.call)) := by
    intro p
    induction p with
    | done | fail => intro s calls; simp
    | ask c next ih =>
      intro s calls
      simp only [run_ask, exchanges_ask, Service.logged, List.map_cons]
      rcases service c s with ⟨_ | reply, s'⟩
      · rfl
      · simp only [ih reply s', List.append_assoc, List.singleton_append]
  rw [runLogged, key, List.nil_append]

/-- Every answer is one that the service gives. -/
theorem exists_answer {p : Dialogue α} {s : σ} {c : Call} {answer : Except Failure c.Reply}
    (h : ⟨c, answer⟩ ∈ p.exchanges service s) : ∃ s', (service c s').1 = answer := by
  induction p generalizing s with
  | done | fail => simp at h
  | ask c' next ih =>
    rw [exchanges_ask] at h
    rcases List.mem_cons.mp h with first | later
    · cases first
      exact ⟨s, rfl⟩
    · rcases hc : service c' s with ⟨e | reply, s'⟩ <;> simp only [hc] at later
      · simp at later
      · exact ih reply later

/-- A call that fails is the last one of a run, and the run fails as it does. -/
theorem answer_error_last {p : Dialogue α} {s : σ} {before after : List Exchange} {x : Exchange}
    {e : Failure} (h : p.exchanges service s = before ++ x :: after) (hx : x.answer = .error e) :
    after = [] ∧ (p.run service s).1 = .error e := by
  induction p generalizing s before with
  | done | fail => simp at h
  | ask c next ih =>
    simp only [exchanges_ask, run_ask] at h ⊢
    rcases hc : service c s with ⟨e' | reply, s'⟩ <;> simp only [hc] at h ⊢
    · cases before with
      | nil =>
        obtain ⟨rfl, rfl⟩ := List.cons.inj h
        cases hx
        exact ⟨rfl, rfl⟩
      | cons _ before => simp at h
    · cases before with
      | nil =>
        obtain ⟨rfl, -⟩ := List.cons.inj h
        simp at hx
      | cons _ before => exact ih reply (List.cons.inj h).2

/-! ### What every run of a program satisfies -/

/-- Every call that a program can make satisfies `P`. -/
def Calls (P : Call → Prop) : Dialogue α → Prop
  | .done _ | .fail _ => True
  | .ask call next => P call ∧ ∀ reply, (next reply).Calls P

/-- Every result that a program can end with satisfies `Q`. -/
def Yields (Q : α → Prop) : Dialogue α → Prop
  | .done a => Q a
  | .fail _ => True
  | .ask _ next => ∀ reply, (next reply).Yields Q

@[simp] theorem calls_lift (P : Call → Prop) (x : Except Failure α) : (lift x).Calls P := by
  cases x <;> trivial

@[simp] theorem calls_call (P : Call → Prop) (c : Call) : (call c).Calls P ↔ P c :=
  ⟨And.left, fun h => ⟨h, fun _ => trivial⟩⟩

theorem Calls.bind {P : Call → Prop} {p : Dialogue α} {f : α → Dialogue β} (hp : p.Calls P)
    (hf : ∀ a, (f a).Calls P) : (p.bind f).Calls P := by
  induction p with
  | done a => exact hf a
  | fail => trivial
  | ask c next ih => exact ⟨hp.1, fun reply => ih reply (hp.2 reply)⟩

theorem Calls.imp {P Q : Call → Prop} {p : Dialogue α} (hp : p.Calls P) (h : ∀ c, P c → Q c) :
    p.Calls Q := by
  induction p with
  | done | fail => trivial
  | ask c next ih => exact ⟨h c hp.1, fun reply => ih reply (hp.2 reply)⟩

theorem Calls.exchanges {P : Call → Prop} {p : Dialogue α} (hp : p.Calls P) (s : σ) :
    ∀ x ∈ p.exchanges service s, P x.call := by
  induction p generalizing s with
  | done | fail => simp
  | ask c next ih =>
    rw [exchanges_ask]
    rcases service c s with ⟨_ | reply, s'⟩
    · simpa using hp.1
    · exact List.forall_mem_cons.mpr ⟨hp.1, ih reply (hp.2 reply) s'⟩

/-- What holds of a state and is kept by every call that a program can make holds after a run. -/
theorem Calls.invariant {P : Call → Prop} {I : σ → Prop} {p : Dialogue α} (hp : p.Calls P)
    (step : ∀ call s, P call → I s → I (service call s).2) {s : σ} (h : I s) :
    I (p.run service s).2 := by
  induction p generalizing s with
  | done | fail => exact h
  | ask call next ih =>
    have after := step call s hp.1 h
    rw [run_ask]
    rcases hc : service call s with ⟨e | reply, s'⟩ <;> rw [hc] at after
    · exact after
    · exact ih reply (hp.2 reply) after

theorem Yields.bind {Q : β → Prop} {p : Dialogue α} {f : α → Dialogue β}
    (hf : ∀ a, (f a).Yields Q) : (p.bind f).Yields Q := by
  induction p with
  | done a => exact hf a
  | fail => trivial
  | ask c next ih => exact ih

theorem Yields.run {Q : α → Prop} {p : Dialogue α} (hp : p.Yields Q) {s t : σ} {a : α}
    (h : p.run service s = (.ok a, t)) : Q a := by
  induction p generalizing s with
  | done b =>
    obtain ⟨h, -⟩ := Prod.mk.inj h
    cases h
    exact hp
  | fail => simp at h
  | ask c next ih =>
    rw [run_ask] at h
    rcases hc : service c s with ⟨_ | reply, s'⟩ <;> simp only [hc] at h
    · simp at h
    · exact ih reply (hp reply) h

/-- Every failure that a program ends with by itself satisfies `Q`. -/
def Raises (Q : Failure → Prop) : Dialogue α → Prop
  | .done _ => True
  | .fail e => Q e
  | .ask _ next => ∀ reply, (next reply).Raises Q

theorem raises_lift {Q : Failure → Prop} {x : Except Failure α} (h : ∀ e, x = .error e → Q e) :
    (lift x).Raises Q := by
  cases x with
  | error e => exact h e rfl
  | ok a => trivial

theorem Raises.bind {Q : Failure → Prop} {p : Dialogue α} {f : α → Dialogue β} (hp : p.Raises Q)
    (hf : ∀ a, (f a).Raises Q) : (p.bind f).Raises Q := by
  induction p with
  | done a => exact hf a
  | fail => exact hp
  | ask c next ih => exact fun reply => ih reply (hp reply)

/-- A run fails as the program does by itself, or as a call of it does. -/
theorem Raises.run {Q : Failure → Prop} {p : Dialogue α} (hp : p.Raises Q) {s t : σ} {e : Failure}
    (h : p.run service s = (.error e, t)) :
    Q e ∨ ∃ call, ⟨call, .error e⟩ ∈ p.exchanges service s := by
  induction p generalizing s with
  | done => cases h
  | fail =>
    cases h
    exact .inl hp
  | ask c next ih =>
    rw [run_ask] at h
    rw [exchanges_ask]
    rcases hc : service c s with ⟨e' | reply, s'⟩ <;> simp only [hc] at h ⊢
    · cases h
      exact .inr ⟨c, List.mem_cons_self⟩
    · exact (ih reply (hp reply) h).imp_right fun ⟨call, member⟩ =>
        ⟨call, List.mem_cons_of_mem _ member⟩

/-! ### What a program does after what was said before -/

/-- After the exchanges `past`, and with replies that `may` come, every call that a program makes
satisfies `P` where it is made, and its result satisfies `Q`. -/
def Keeps (may : (call : Call) → call.Reply → Prop) (P : List Exchange → Call → Prop)
    (Q : List Exchange → α → Prop) : Dialogue α → List Exchange → Prop
  | .done a, past => Q past a
  | .fail _, _ => True
  | .ask call next, past => P past call ∧ ∀ reply, may call reply →
    (next reply).Keeps may P Q (past ++ [⟨call, .ok reply⟩])

section Keeps

variable {may : (call : Call) → call.Reply → Prop} {P : List Exchange → Call → Prop}
  {past : List Exchange}

theorem keeps_lift {Q : List Exchange → α → Prop} {x : Except Failure α}
    (h : ∀ a, x = .ok a → Q past a) : (lift x).Keeps may P Q past := by
  cases x with
  | error e => trivial
  | ok a => exact h a rfl

theorem keeps_lift_bind {R : List Exchange → β → Prop} {x : Except Failure α} {f : α → Dialogue β}
    (h : ∀ a, x = .ok a → (f a).Keeps may P R past) : ((lift x).bind f).Keeps may P R past := by
  cases x with
  | error e => trivial
  | ok a => exact h a rfl

theorem Keeps.bind {Q : List Exchange → α → Prop} {R : List Exchange → β → Prop} {p : Dialogue α}
    {f : α → Dialogue β} (hp : p.Keeps may P Q past)
    (hf : ∀ a past, Q past a → (f a).Keeps may P R past) : (p.bind f).Keeps may P R past := by
  induction p generalizing past with
  | done a => exact hf a past hp
  | fail => trivial
  | ask c next ih => exact ⟨hp.1, fun reply hr => ih reply (hp.2 reply hr)⟩

/-- Every call of a run satisfies what the program keeps to, after the exchanges before it. -/
theorem Keeps.exchanges {Q : List Exchange → α → Prop} {p : Dialogue α}
    (hp : p.Keeps may P Q past) {s : σ}
    (honest : ∀ call reply, ⟨call, .ok reply⟩ ∈ p.exchanges service s → may call reply)
    {before after : List Exchange} {x : Exchange}
    (split : p.exchanges service s = before ++ x :: after) : P (past ++ before) x.call := by
  induction p generalizing past s before with
  | done | fail => simp at split
  | ask c next ih =>
    rw [exchanges_ask] at split honest
    cases before with
    | nil =>
      obtain ⟨rfl, -⟩ := List.cons.inj split
      simpa using hp.1
    | cons first before =>
      obtain ⟨rfl, rest⟩ := List.cons.inj split
      rcases hc : service c s with ⟨e | reply, s'⟩ <;> simp only [hc] at rest honest ⊢
      · simp at rest
      · have kept := ih reply (hp.2 reply (honest c reply List.mem_cons_self))
          (fun call r member => honest call r (List.mem_cons_of_mem _ member)) rest
        rwa [List.append_assoc, List.singleton_append] at kept

/-- A run that succeeds ends with what the program keeps to. -/
theorem Keeps.run {Q : List Exchange → α → Prop} {p : Dialogue α} (hp : p.Keeps may P Q past)
    {s t : σ} {a : α}
    (honest : ∀ call reply, ⟨call, .ok reply⟩ ∈ p.exchanges service s → may call reply)
    (h : p.run service s = (.ok a, t)) : Q (past ++ p.exchanges service s) a := by
  induction p generalizing past s with
  | done b =>
    cases h
    rw [exchanges_done, List.append_nil]
    exact hp
  | fail => cases h
  | ask c next ih =>
    rw [run_ask] at h
    rw [exchanges_ask] at honest ⊢
    rcases hc : service c s with ⟨e | reply, s'⟩ <;> simp only [hc] at h honest ⊢
    · cases h
    · have kept := ih reply (hp.2 reply (honest c reply List.mem_cons_self))
        (fun call r member => honest call r (List.mem_cons_of_mem _ member)) h
      rwa [List.append_assoc, List.singleton_append] at kept

end Keeps

end Dialogue

end UserFederation
