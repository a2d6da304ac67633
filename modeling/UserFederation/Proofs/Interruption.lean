import UserFederation.Proofs.Ways

/-! Runs in which one call fails. `Service.failingAt` makes one mutating call of a run fail, without
an effect; the run ends there, with what the calls before it have done. If the failing call is one
of a plan, a part of the plan was carried out (`execute_interrupted`). -/

namespace UserFederation

namespace Dialogue

variable {α σ : Type} {service : Service σ} {fault : Fault} {due : Option Nat} {s : σ}

/-- A service at which one mutating call fails and changes nothing: the next one when none is left
to be let through. -/
def Service.failingAt (fault : Fault) (service : Service σ) : Service (Option Nat × σ) :=
  fun call (due, s) =>
    if call.isMutation then
      match due with
      | some 0 => (.error (.remote fault), none, s)
      | some (n + 1) => ((service call s).1, some n, (service call s).2)
      | none => ((service call s).1, none, (service call s).2)
    else ((service call s).1, due, (service call s).2)

theorem failingAt_reads {call : Call} (h : Reconcile.Reads call) :
    service.failingAt fault call (due, s) = ((service call s).1, due, (service call s).2) := by
  simp only [Service.failingAt, show call.isMutation = false from h, Bool.false_eq_true, if_false]

theorem failingAt_zero {call : Call} (h : call.isMutation = true) :
    service.failingAt fault call (some 0, s) = (.error (.remote fault), none, s) := by
  simp only [Service.failingAt, h, if_true]

theorem failingAt_succ {call : Call} (h : call.isMutation = true) (n : Nat) :
    service.failingAt fault call (some (n + 1), s) =
      ((service call s).1, some n, (service call s).2) := by
  simp only [Service.failingAt, h, if_true]

theorem failingAt_none {call : Call} :
    service.failingAt fault call (none, s) = ((service call s).1, none, (service call s).2) := by
  simp only [Service.failingAt, ite_self]

/-- Reading goes on as ever. -/
theorem Calls.run_failingAt {p : Dialogue α} (h : p.Calls Reconcile.Reads) (s : σ) :
    p.run (service.failingAt fault) (due, s) =
      ((p.run service s).1, due, (p.run service s).2) := by
  induction p generalizing s with
  | done | fail => rfl
  | ask c next ih =>
    simp only [run_ask, failingAt_reads h.1]
    rcases service c s with ⟨_ | reply, s'⟩
    · rfl
    · exact ih reply (h.2 reply) s'

end Dialogue

namespace Mapper

open Dialogue Reconcile

variable {α σ : Type} {service : Service σ} {fault : Fault} {s v : σ} {realm : String} {n : Nat}
  {plan : List Action}

theorem Action.call_isMutation (a : Action) (realm : String) : (a.call realm).isMutation = true := by
  cases a <;> rfl

/-- A plan is carried out up to the action whose call fails. -/
theorem execute_interrupted {r : Except Failure Unit}
    (h : (execute realm plan).run (service.failingAt fault) (some n, s) = (r, none, v)) :
    r = .error (.remote fault) ∧ ∃ before a after, plan = before ++ a :: after ∧
      before.length = n ∧ (execute realm before).run service s = (.ok (), v) := by
  induction plan generalizing n s with
  | nil => cases h
  | cons a plan ih =>
    rw [Server.run_execute_cons] at h
    cases n with
    | zero =>
      rw [failingAt_zero (a.call_isMutation realm)] at h
      cases h
      exact ⟨rfl, [], a, plan, rfl, rfl, rfl⟩
    | succ n =>
      rw [failingAt_succ (a.call_isMutation realm)] at h
      rcases hc : service (a.call realm) s with ⟨_ | reply, s'⟩ <;> simp only [hc] at h
      · cases h
      · obtain ⟨failed, before, b, after, rfl, length, run⟩ := ih h
        refine ⟨failed, a :: before, b, after, rfl, by simp [length], ?_⟩
        rw [Server.run_execute_cons, hc]
        exact run

/-- A plan breaks off at the action whose call is made to fail. -/
theorem execute_breaks_off {past rest : List Action} {a : Action}
    (done : (execute realm past).run service s = (.ok (), v)) :
    (execute realm (past ++ a :: rest)).run (service.failingAt fault) (some past.length, s) =
      (.error (.remote fault), none, v) := by
  induction past generalizing s with
  | nil =>
    cases done
    rw [List.nil_append, Server.run_execute_cons, List.length_nil,
      failingAt_zero (a.call_isMutation realm)]
  | cons b past ih =>
    rw [Server.run_execute_cons] at done
    rw [List.cons_append, Server.run_execute_cons, List.length_cons,
      failingAt_succ (b.call_isMutation realm)]
    rcases hc : service (b.call realm) s with ⟨_ | reply, s'⟩ <;> simp only [hc] at done ⊢
    · cases done
    · exact ih done

/-- What comes after a plan does not matter if it only reads. -/
theorem execute_bind_interrupted {r : Except Failure α} {next : Unit → Dialogue α}
    (reads : (next ()).Calls Reads)
    (h : ((execute realm plan).bind next).run (service.failingAt fault) (some n, s) =
      (r, none, v)) :
    ∃ before a after, plan = before ++ a :: after ∧ before.length = n ∧
      (execute realm before).run service s = (.ok (), v) := by
  rw [run_bind] at h
  rcases hx : (execute realm plan).run (service.failingAt fault) (some n, s) with
    ⟨e | _, due, v'⟩ <;> simp only [hx] at h
  · cases h
    exact (execute_interrupted hx).2
  · rw [reads.run_failingAt] at h
    cases h
    exact absurd (execute_interrupted hx).1 (by simp)

end Mapper

namespace Server

open Dialogue Mapper Reconcile

variable {supply : Supply} {s s₁ v : Server} {d : Declaration} {mode : RunMode} {fault : Fault}
  {f : String} {n : Nat} {changes : Changeset} {before : Option Federation}
  {r : Except Failure Outcome}

/-- A run that may be interrupted leads from a reachable server to another one as well. -/
theorem Reachable.run_failingAt {α : Type} (h : Reachable supply s) (p : Dialogue α)
    (due : Option Nat) :
    Reachable supply (p.run ((answer supply).failingAt fault) (due, s)).2.2 := by
  induction p generalizing due s with
  | done | fail => exact h
  | ask call next ih =>
    have after : Reachable supply ((answer supply).failingAt fault call (due, s)).2.2 := by
      have answered : Reachable supply (answer supply call s).2 := h.apply (.call call)
      cases mutation : call.isMutation with
      | false => rwa [failingAt_reads mutation]
      | true =>
        rcases due with _ | _ | n
        · rwa [failingAt_none]
        · rwa [failingAt_zero mutation]
        · rwa [failingAt_succ mutation]
    rw [run_ask]
    rcases hc : (answer supply).failingAt fault call (due, s) with ⟨_ | reply, due', s'⟩ <;>
      rw [hc] at after
    · exact after
    · exact ih reply after due'

/-- An interrupted run has read what there was. -/
theorem interrupted_run
    (h : (reconcile d mode).run ((answer supply).failingAt fault) (some n, s) = (r, none, v)) :
    ∃ before changes, s.surveyed d = .ok (before, changes) ∧
      (conclude d mode before changes).run ((answer supply).failingAt fault) (some n, s) =
        (r, none, v) := by
  rw [reconcile_eq, run_bind, (survey_reads d).run_failingAt, survey_run] at h
  cases hs : s.surveyed d with
  | error e => simp [hs] at h
  | ok result => exact ⟨result.1, result.2, rfl, by simpa only [hs] using h⟩

/-- A run that updates is interrupted at the update, or in its plan. -/
theorem update_interrupted {existing desired : Federation} {outcome : Outcome}
    (apply : mode.dryRun = false) (hid : existing.component.id = some f)
    (h : (Reconcile.update d mode existing desired outcome).run
      ((answer supply).failingAt fault) (some n, s) = (r, none, v)) :
    desired.needsUpdate existing d.credentialPolicy = true ∧ (n = 0 ∧ v = s ∨
      ∃ m s₁ past a rest, n = m + 1 ∧ s.update supply desired.component d.realm = (.ok (), s₁) ∧
        planUpdate desired.mappers existing.mappers f = past ++ a :: rest ∧ past.length = m ∧
          (execute d.realm past).run (answer supply) s₁ = (.ok (), v)) := by
  cases busy : desired.needsUpdate existing d.credentialPolicy with
  | false =>
    rw [update_idle hid busy] at h
    cases h
  | true =>
    refine ⟨rfl, ?_⟩
    rw [update_busy hid apply busy, run_ask] at h
    cases n with
    | zero =>
      rw [failingAt_zero rfl] at h
      cases h
      exact .inl ⟨rfl, rfl⟩
    | succ m =>
      rw [failingAt_succ rfl] at h
      simp only [answer] at h
      rcases hu : s.update supply desired.component d.realm with ⟨_ | _, s₁⟩ <;>
        simp only [hu] at h
      · cases h
      · obtain ⟨past, a, rest, split, length, run⟩ := execute_bind_interrupted reread_reads h
        exact .inr ⟨m, s₁, past, a, rest, rfl, rfl, split, length, run⟩

/-- A run that creates is interrupted at the creation, or in its plan. -/
theorem create_interrupted {desired : Federation} {outcome : Outcome}
    (apply : mode.dryRun = false)
    (h : (Reconcile.create d mode desired outcome).run
      ((answer supply).failingAt fault) (some n, s) = (r, none, v)) :
    n = 0 ∧ v = s ∨ ∃ m c s₁ f plan past a rest, n = m + 1 ∧
      s.create supply desired.component d.realm = (.ok c, s₁) ∧ c.id = some f ∧
        planAfterCreation desired.mappers (s₁.children f d.realm) f d.prune = .ok plan ∧
          plan = past ++ a :: rest ∧ past.length = m ∧
            (execute d.realm past).run (answer supply) s₁ = (.ok (), v) := by
  rw [create_apply apply, run_ask] at h
  cases n with
  | zero =>
    rw [failingAt_zero rfl] at h
    cases h
    exact .inl ⟨rfl, rfl⟩
  | succ m =>
    rw [failingAt_succ rfl] at h
    simp only [answer] at h
    rcases hc : s.create supply desired.component d.realm with ⟨_ | c, s₁⟩ <;> simp only [hc] at h
    · cases h
    · cases hid : c.id with
      | none => simp [hid] at h
      | some f =>
        simp only [hid, run_ask, failingAt_reads (show Reads (.children f d.realm) from rfl),
          answer, run_bind, run_lift] at h
        cases hp : planAfterCreation desired.mappers (s₁.children f d.realm) f d.prune with
        | error e => simp [hp] at h
        | ok plan =>
          simp only [hp] at h
          rw [← run_bind] at h
          obtain ⟨past, a, rest, split, length, run⟩ := execute_bind_interrupted present_reads h
          exact .inr ⟨m, c, s₁, f, plan, past, a, rest, rfl, rfl, hid, hp, split, length, run⟩

/-- A run that creates breaks off at the call of its plan that is made to fail. -/
theorem run_breaks_off {c : Component} (past : List Action) {a : Action} {rest : List Action}
    (present : d.state = .present) (apply : mode.dryRun = false)
    (surveyed : s.surveyed d = .ok (none, changes))
    (create : s.create supply (changes.applyTo none).component d.realm = (.ok c, s₁))
    (hid : c.id = some f)
    (planned : planAfterCreation (changes.applyTo none).mappers (s₁.children f d.realm) f d.prune =
      .ok (past ++ a :: rest))
    (done : (execute d.realm past).run (answer supply) s₁ = (.ok (), v)) :
    (reconcile d mode).run ((answer supply).failingAt fault) (some (past.length + 1), s) =
      (.error (.remote fault), none, v) := by
  rw [reconcile_eq, run_bind, (survey_reads d).run_failingAt, survey_run, surveyed]
  simp only [conclude, present, create_apply apply]
  rw [run_ask, failingAt_succ rfl]
  simp only [answer, create, hid]
  rw [run_ask, failingAt_reads (show Reads (.children f d.realm) from rfl)]
  simp only [answer, run_bind, run_lift, planned, execute_breaks_off done]

end Server

end UserFederation
