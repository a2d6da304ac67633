import UserFederation.Proofs.Effects
import UserFederation.Proofs.Survey

/-! Runs that stop anywhere. `Service.refusing` refuses any of the calls of a run, without an effect.
However it goes, a run whose calls give no component the id of an entry leaves this entry as it is,
or deletes it (`run_spared`). -/

namespace UserFederation

/-! ### Runs with refused calls -/

namespace Dialogue

variable {α σ : Type} {service : Service σ} {refusal : Nat → Option Failure}

/-- A service that refuses some calls, without an effect; calls are counted from 0. -/
def Service.refusing (refusal : Nat → Option Failure) (service : Service σ) : Service (Nat × σ) :=
  fun call (n, s) =>
    match refusal n with
    | some e => (.error e, n + 1, s)
    | none => ((service call s).1, n + 1, (service call s).2)

/-- A call is refused, or it is answered as ever. -/
theorem refusing_cases (service : Service σ) (refusal : Nat → Option Failure) (call : Call) (n : Nat)
    (s : σ) :
    (∃ e, service.refusing refusal call (n, s) = (.error e, n + 1, s)) ∨
      service.refusing refusal call (n, s) = ((service call s).1, n + 1, (service call s).2) := by
  simp only [Service.refusing]
  cases refusal n with
  | some e => exact .inl ⟨e, rfl⟩
  | none => exact .inr rfl

/-- A run that succeeds had no call refused. -/
theorem run_refusing_ok {p : Dialogue α} {n m : Nat} {s t : σ} {a : α}
    (h : p.run (service.refusing refusal) (n, s) = (.ok a, m, t)) :
    p.run service s = (.ok a, t) := by
  induction p generalizing n s with
  | done b =>
    cases h
    rfl
  | fail => cases h
  | ask c next ih =>
    rw [run_ask] at h ⊢
    rcases refusing_cases service refusal c n s with ⟨e, hc⟩ | hc <;> rw [hc] at h
    · cases h
    · rcases hs : service c s with ⟨e | reply, s'⟩ <;> simp only [hs] at h ⊢
      · cases h
      · exact ih reply h

/-- Where no call is refused, a run goes as ever. -/
theorem run_refusing_none (p : Dialogue α) (n : Nat) (s : σ) :
    ((p.run (service.refusing fun _ => none) (n, s)).1,
      (p.run (service.refusing fun _ => none) (n, s)).2.2) = p.run service s := by
  induction p generalizing n s with
  | done | fail => rfl
  | ask c next ih =>
    have answered : service.refusing (fun _ => none) c (n, s) =
        ((service c s).1, n + 1, (service c s).2) := rfl
    rw [run_ask, run_ask, answered]
    rcases service c s with ⟨e | reply, s'⟩
    · rfl
    · exact ih reply (n + 1) s'

end Dialogue

namespace Server

open Dialogue Reconcile

variable {supply : Supply} {s s' t : Server} {f : String}

/-! ### Calls that avoid an id -/

/-- A call that gives or sends no component of an id. -/
def Avoids (f : String) : Call → Prop
  | .create c _ | .update c _ => c.id ≠ some f
  | _ => True

/-- The entry of an id is what it was, or gone; new ids are as new as before. -/
structure Spared (f : String) (s s' : Server) : Prop where
  entry : s'.components.get? f = s.components.get? f ∨ s'.components.get? f = none
  defaults : s'.defaults = s.defaults
  idsIssued : s.idsIssued ≤ s'.idsIssued

theorem Spared.refl (s : Server) : Spared f s s := ⟨.inl rfl, rfl, Nat.le_refl _⟩

theorem Spared.trans (h : Spared f s s') (h' : Spared f s' t) : Spared f s t where
  entry := by
    rcases h'.entry with same | gone
    · rw [same]
      exact h.entry
    · exact .inr gone
  defaults := h'.defaults.trans h.defaults
  idsIssued := Nat.le_trans h.idsIssued h'.idsIssued

theorem Answered.spared {call : Call} (answered : Answered supply s call s') (past : Past supply s f)
    (avoids : Avoids f call) : Spared f s s' := by
  refine ⟨?_, answered.defaults, answered.idsIssued⟩
  cases answered with
  | kept components =>
    rw [components]
    exact .inl rfl
  | created grown => exact .inl (grown.kept f (grown.id_ne past avoids) past)
  | updated hid _ _ _ components =>
    rw [components, SortedMap.get?_insert, if_neg]
    · exact .inl rfl
    · rintro rfl
      exact avoids hid
  | deleted deleted =>
    cases he : s'.components.get? f with
    | none => exact .inr rfl
    | some e => exact .inl (deleted.get?_of_some he).symm

/-- Where all calls of a run avoid an id, its entry is spared, wherever the run ends. -/
theorem run_spared {α : Type} {p : Dialogue α} (avoids : p.Calls (Avoids f))
    (refusal : Nat → Option Failure) (n : Nat) (past : Past supply s f)
    (new : ∀ provider mappers, s.defaults.get? provider = some mappers → ∀ m ∈ mappers, m.id = none) :
    Spared f s (p.run ((answer supply).refusing refusal) (n, s)).2.2 := by
  induction p generalizing n s with
  | done | fail => exact .refl s
  | ask call next ih =>
    have step : Spared f s (answer supply call s).2 := (answered new call).spared past avoids.1
    rw [run_ask]
    rcases refusing_cases (answer supply) refusal call n s with ⟨e, hc⟩ | hc <;> rw [hc]
    · exact .refl s
    · rcases hs : answer supply call s with ⟨e | reply, s'⟩ <;> rw [hs] at step <;> simp only
      · exact step
      -- The id is not given out after the step either, and new mappers still come without ids.
      · refine step.trans (ih reply (avoids.2 reply) (n + 1) (fun k hk => past k ?_) ?_)
        · exact Nat.le_trans step.idsIssued hk
        · rw [step.defaults]
          exact new

/-- Reading leaves a server as it is. -/
theorem run_reads {α : Type} {p : Dialogue α} (reads : p.Calls Reads)
    (refusal : Nat → Option Failure) (n : Nat) (s : Server) :
    (p.run ((answer supply).refusing refusal) (n, s)).2.2 = s := by
  induction p generalizing n with
  | done | fail => rfl
  | ask call next ih =>
    have kept : (answer supply call s).2 = s := by
      have h := reads.1
      cases call with
      | find | get | children => rfl
      | create | update | delete => cases h
    rw [run_ask]
    rcases refusing_cases (answer supply) refusal call n s with ⟨e, hc⟩ | hc <;> rw [hc]
    rcases hs : answer supply call s with ⟨e | reply, s'⟩ <;> rw [hs] at kept <;> cases kept
    · rfl
    · exact ih reply (reads.2 reply) (n + 1)

end Server

end UserFederation
