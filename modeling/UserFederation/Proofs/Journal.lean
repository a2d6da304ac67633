import UserFederation.Proofs.Addition
import UserFederation.Proofs.Atomicity
import UserFederation.Proofs.Reachable

/-! What the journal tells. Each call that succeeds in changing something adds one entry, with the
id and the name of the component that it is about, and nothing else does (`apply_journal`). So after
any operations the journal has the entries of the calls that succeeded since it was cleared
(`journal_recorded`). A call that fails adds nothing, and leaves everything else as it is too
(`journal_faithful`). -/

namespace UserFederation

namespace Operation

/-- Whether an operation forgets the journal. -/
def clears : Operation → Bool
  | .clearJournal => true
  | .seed .. | .setDefaults .. | .ignoreKey _ | .failNext _ | .call _ => false

/-- The failure that is due after an operation. -/
def dueAfter (due : Option MutationKind) : Operation → Option MutationKind
  | .failNext kind => some kind
  | .call made => Server.dueAfter made.kind? due
  | .seed .. | .setDefaults .. | .ignoreKey _ | .clearJournal => due

/-- An operation gives default mappers no ids of their own. -/
def Unnumbered : Operation → Prop
  | .setDefaults _ mappers => ∀ m ∈ mappers, m.id = none
  | .seed .. | .ignoreKey _ | .failNext _ | .clearJournal | .call _ => True

end Operation

namespace Server

variable {supply : Supply} {s s' : Server} {realm id : String} {c : Component}

/-- The entry of a call: what was created, updated or deleted if the call succeeds. -/
def callEntry? (supply : Supply) (s : Server) : Call → Option Mutation
  | .create c realm => (s.create supply c realm).1.toOption.map fun created =>
    ⟨.create, created.id.getD "", created.name⟩
  | .update c realm => (s.update supply c realm).1.toOption.map fun _ =>
    ⟨.update, c.id.getD "", c.name⟩
  | .delete id realm => (s.delete id realm).1.toOption.map fun _ =>
    ⟨.delete, id, (s.get id realm).bind (·.name)⟩
  | .find .. | .get .. | .children .. => none

/-- The entry of an operation; only calls have one. -/
def entry? (supply : Supply) (s : Server) : Operation → Option Mutation
  | .call call => s.callEntry? supply call
  | .seed .. | .setDefaults .. | .ignoreKey _ | .failNext _ | .clearJournal => none

/-- The entries of operations one after another, as far as the journal is not cleared later. -/
def recorded (supply : Supply) (s : Server) : List Operation → List Mutation
  | [] => []
  | operation :: later =>
    (if later.any Operation.clears then [] else (s.entry? supply operation).toList) ++
      (s.apply supply operation).recorded supply later

/-! ### Calls that succeed -/

theorem create_records {reply : Component} (h : s.create supply c realm = (.ok reply, s')) :
    s'.journal = s.journal ++ [⟨.create, reply.id.getD "", reply.name⟩] := by
  obtain ⟨e, -, rfl, rfl⟩ := create_ok h
  rw [record, (establish_frame supply s c realm).2, redact_id, redact_name]

theorem update_records (h : s.update supply c realm = (.ok (), s')) :
    s'.journal = s.journal ++ [⟨.update, c.id.getD "", c.name⟩] := by
  obtain ⟨id, e, y, n, -, -, -, stamped, rfl⟩ := update_supplants h
  rw [supplant, record, stamped.rest]
  rfl

theorem delete_records (keyed : s.Keyed) (h : s.delete id realm = (.ok (), s')) :
    s'.journal = s.journal ++ [⟨.delete, id, (s.get id realm).bind (·.name)⟩] := by
  obtain ⟨e, he, hr, rfl⟩ := delete_drops h
  rw [record, keyed id e he, get, stored?_eq_some_iff.mpr ⟨he, hr⟩]
  rfl

/-! ### Operations -/

theorem answer_journal (keyed : s.Keyed) (supply : Supply) (call : Call) :
    (answer supply call s).2.journal = s.journal ++ (s.callEntry? supply call).toList := by
  have failed : ∀ {e : Failure} {s' : Server}, answer supply call s = (.error e, s') →
      s'.journal = s.journal := fun h => by rw [answer_error h]
  cases call with
  | find | get | children => exact (List.append_nil _).symm
  | create c realm =>
    rcases h : s.create supply c realm with ⟨e | reply, s'⟩ <;> simp only [answer, callEntry?, h]
    · exact (failed h).trans (List.append_nil _).symm
    · exact create_records h
  | update c realm =>
    rcases h : s.update supply c realm with ⟨e | _, s'⟩ <;> simp only [answer, callEntry?, h]
    · exact (failed h).trans (List.append_nil _).symm
    · exact update_records h
  | delete id realm =>
    rcases h : s.delete id realm with ⟨e | _, s'⟩ <;> simp only [answer, callEntry?, h]
    · exact (failed h).trans (List.append_nil _).symm
    · exact delete_records keyed h

/-- An operation adds its entry to the journal, or clears it. -/
theorem apply_journal (keyed : s.Keyed) (supply : Supply) (operation : Operation) :
    (s.apply supply operation).journal =
      (if operation.clears then [] else s.journal) ++ (s.entry? supply operation).toList := by
  cases operation with
  | call call => exact answer_journal keyed supply call
  | clearJournal => rfl
  | seed | setDefaults | ignoreKey | failNext => exact (List.append_nil _).symm

/-- After operations, the journal has their entries since it was last cleared. -/
theorem journal_recorded (reachable : Reachable supply s) (operations : List Operation) :
    (operations.foldl (apply supply) s).journal =
      (if operations.any Operation.clears then [] else s.journal) ++
        s.recorded supply operations := by
  induction operations generalizing s with
  | nil => exact (List.append_nil _).symm
  | cons operation later ih =>
    rw [List.foldl_cons, ih (reachable.apply operation), apply_journal reachable.keyed, recorded,
      List.any_cons]
    by_cases cleared : later.any Operation.clears = true
    · simp [cleared]
    · simp [cleared, List.append_assoc]

/-! ### Components with default mappers -/

/-- The default mappers of a server have no ids of their own. -/
def Unnumbered (s : Server) : Prop :=
  ∀ provider mappers, s.defaults.get? provider = some mappers → ∀ m ∈ mappers, m.id = none

theorem unnumbered_fresh (new : s = withLdapDefaults ∨ s = withoutDefaults) : s.Unnumbered := by
  intro provider mappers found
  rcases new with rfl | rfl
  · have there : (provider, mappers) ∈ [("ldap", ldapDefaults)] :=
      SortedMap.get?_eq_some_iff.mp found
    cases List.mem_singleton.mp there
    decide
  · cases found

theorem Unnumbered.apply {operation : Operation} (h : s.Unnumbered) (supply : Supply)
    (new : operation.Unnumbered) : (s.apply supply operation).Unnumbered := by
  cases operation with
  | seed | ignoreKey | failNext | clearJournal => exact h
  | call call =>
    unfold Unnumbered
    rw [Server.apply, answer_defaults]
    exact h
  | setDefaults provider mappers =>
    intro other others found
    rw [Server.apply, SortedMap.get?_insert] at found
    split at found
    · cases found
      exact new
    · exact h other others found

theorem Unnumbered.foldl_apply {operations : List Operation} (h : s.Unnumbered) (supply : Supply)
    (new : ∀ operation ∈ operations, operation.Unnumbered) :
    (operations.foldl (Server.apply supply) s).Unnumbered := by
  induction operations generalizing s with
  | nil => exact h
  | cons operation later ih =>
    rw [List.forall_mem_cons] at new
    exact ih (h.apply supply new.1) new.2

/-- A creation is answered with what was to be created, and not with one of its default mappers. -/
theorem create_reply {reply : Component} (unnumbered : s.Unnumbered)
    (injective : ∀ m n, supply.id m = supply.id n → m = n)
    (hid : ∀ i, c.id = some i → Past supply s i) (h : s.create supply c realm = (.ok reply, s')) :
    reply.id = some (c.id.getD (supply.id s.idsIssued)) ∧ reply.name = c.name := by
  obtain ⟨e, there, rfl, -⟩ := create_ok h
  obtain ⟨x, made⟩ := established unnumbered supply c realm
  obtain ⟨-, e', stored, -, rfl⟩ := made.stored injective hid
  cases there.symm.trans stored
  obtain ⟨y, stamped, form⟩ := made.form
  rw [redact_id, redact_name, form, stamped.rest]
  exact ⟨congrArg some made.id_eq, rfl⟩

/-- A failure that is due stays so until a call of its kind. -/
theorem apply_failNext (supply : Supply) (s : Server) (operation : Operation) :
    (s.apply supply operation).failNext = operation.dueAfter s.failNext := by
  cases operation with
  | seed | setDefaults | ignoreKey | failNext | clearJournal => rfl
  | call call => exact answer_failNext supply call s

/-- After any operations on a new server, calls do what they do in place, one that fails leaves the
server as it is but that a failure of its kind is not due any more, and only a call of its kind
takes a failure that is due. The journal has the entries of the calls that succeeded since it was
cleared, each with the id and the name of the component that was created, updated or deleted. -/
theorem journal_faithful {fresh : Server}
    (new : fresh = withLdapDefaults ∨ fresh = withoutDefaults) (operations : List Operation) :
    let s := operations.foldl (apply supply) fresh
    (∀ call, (InPlace.answer supply call).perform s = answer supply call s) ∧
      (∀ call e s', answer supply call s = (.error e, s') →
        s' = { s with failNext := dueAfter call.kind? s.failNext }) ∧
      (∀ operation, (s.apply supply operation).failNext = operation.dueAfter s.failNext) ∧
      s.journal = fresh.recorded supply operations ∧
      ((∀ operation ∈ operations, operation.Unnumbered) →
        (∀ m n, supply.id m = supply.id n → m = n) →
        ∀ c realm reply s', (∀ i, c.id = some i → Past supply s i) →
          s.create supply c realm = (.ok reply, s') →
          reply.id = some (c.id.getD (supply.id s.idsIssued)) ∧ reply.name = c.name) := by
  have reachable : Reachable supply fresh := by
    rcases new with rfl | rfl
    · exact .withDefaults
    · exact .withoutDefaults
  have blank : fresh.journal = [] := by
    rcases new with rfl | rfl <;> rfl
  refine ⟨fun call => InPlace.answer_inPlace supply call _, fun _ _ _ h => answer_error h,
    fun operation => apply_failNext supply _ operation, ?_, fun unnumbered injective => ?_⟩
  · rw [journal_recorded reachable, blank, ite_self, List.nil_append]
  · exact fun _ _ _ _ hid h =>
      create_reply ((unnumbered_fresh new).foldl_apply supply unnumbered) injective hid h

namespace Sample

/-- The federation `people` under a name. -/
def entitled : Component := { supplied with name := some "People" }

/-- Calls that succeed and calls that fail, as due or since there is no such component. -/
def booked : List Operation :=
  [.call (.create supplied "master"), .clearJournal, .seed "master" mail,
    .call (.create { name := some "staff" } "master"), .failNext .update,
    .call (.delete "people" "other"), .call (.update entitled "master"),
    .call (.update entitled "master"), .call (.children "people" "master"),
    .call (.delete "nobody" "master"), .call (.delete "people" "master")]

end Sample

open Server.Sample in
theorem journal_faithful_booked :
    (booked.foldl (apply tally) withLdapDefaults).journal =
        [⟨.create, "~~~~~~", some "staff"⟩, ⟨.update, "people", some "People"⟩,
          ⟨.delete, "people", some "People"⟩] ∧
      (∃ e s', answer tally (.update entitled "master") withLdapDefaults = (.error e, s') ∧
        s' = withLdapDefaults) ∧
      ∃ reply s', withLdapDefaults.create tally supplied "master" = (.ok reply, s') ∧
        reply.id = some "people" ∧ reply.name = none := by
  obtain ⟨-, -, -, journal, -⟩ := @journal_faithful tally _ (.inl rfl) booked
  obtain ⟨-, failed, -, -, created⟩ := @journal_faithful tally _ (.inl rfl) []
  refine ⟨journal.trans (by decide), ⟨_, _, rfl, failed (.update entitled "master") _ _ rfl⟩,
    _, _, rfl, created nofun tally_injective supplied "master" _ _ ?_ rfl⟩
  intro i hi
  cases hi
  exact past_tally (by decide)

end Server

end UserFederation
