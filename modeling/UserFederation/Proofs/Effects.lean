import UserFederation.Proofs.Below
import UserFederation.Proofs.Listing
import UserFederation.Proofs.Settling

/-! What the calls that change a server do to its entries. `Orderly` collects what a run relies on:
nothing is ignored or due to fail, and new ids are new. Each call has one lemma for its effect, and
each keeps a server orderly. A call that fails leaves a server as it is, up to the failure that was
due (`answer_error`). `Answered` says what any call leaves, whatever the server ignores and whether
the call succeeds. -/

namespace UserFederation

/-- The kind of a call, if it changes what is stored. -/
def Call.kind? : Call → Option MutationKind
  | .create .. => some .create
  | .update .. => some .update
  | .delete .. => some .delete
  | .find .. | .get .. | .children .. => none

namespace Server

open Component

variable {supply : Supply} {s s' t : Server} {realm id k : String} {c : Component} {e : Stored}

/-- An id that is not given out any more. -/
def Past (supply : Supply) (s : Server) (id : String) : Prop :=
  ∀ n, s.idsIssued ≤ n → supply.id n ≠ id

/-- What a run relies on. -/
structure Orderly (supply : Supply) (s : Server) : Prop where
  keyed : s.Keyed
  unignored : s.ignoredKeys = []
  unarmed : s.failNext = none
  defaults : ∀ provider mappers, s.defaults.get? provider = some mappers →
    ∀ m ∈ mappers, m.id = none
  injective : ∀ m n, supply.id m = supply.id n → m = n
  stored : ∀ id e, s.components.get? id = some e → Past supply s id
  parents : ∀ id e parent, s.components.get? id = some e → e.component.parentId = some parent →
    Past supply s parent

/-- How a server is set up stays, and ids are only used up. -/
structure Frame (s s' : Server) : Prop where
  ignoredKeys : s'.ignoredKeys = s.ignoredKeys
  failNext : s'.failNext = s.failNext
  defaults : s'.defaults = s.defaults
  idsIssued : s.idsIssued ≤ s'.idsIssued

theorem Frame.refl (s : Server) : Frame s s := ⟨rfl, rfl, rfl, Nat.le_refl _⟩

theorem Frame.trans (h : Frame s s') (h' : Frame s' t) : Frame s t :=
  ⟨h'.ignoredKeys.trans h.ignoredKeys, h'.failNext.trans h.failNext,
    h'.defaults.trans h.defaults, Nat.le_trans h.idsIssued h'.idsIssued⟩

theorem Past.mono (h : Past supply s k) (frame : Frame s s') : Past supply s' k :=
  fun n hn => h n (Nat.le_trans frame.idsIssued hn)

/-- An id that was given out is not given out again. -/
theorem past_of_issued (injective : ∀ m n, supply.id m = supply.id n → m = n) {n : Nat}
    (h : n < s'.idsIssued) : Past supply s' (supply.id n) := by
  intro m hm same
  have := injective m n same
  omega

/-- Nothing is stored under an id that may still be given out. -/
theorem Orderly.get?_of_not_past (o : Orderly supply s) (new : ¬Past supply s k) :
    s.components.get? k = none := by
  cases he : s.components.get? k with
  | none => rfl
  | some e => exact absurd (o.stored k e he) new

theorem Orderly.past_of_mapper? (o : Orderly supply s) {f : String} {p : Component}
    (h : s.mapper? f realm k = some p) : Past supply s k := by
  obtain ⟨e, he, -⟩ := mapper?_eq_some_iff.mp h
  exact o.stored k e he

/-- A server stays orderly if every entry is an old one or new under its own id, with a parent that
is not given out any more. -/
theorem Orderly.of_entries (o : Orderly supply s) (frame : Frame s s')
    (entries : ∀ id e, s'.components.get? id = some e →
      (s.components.get? id = some e) ∨ e.component.id = some id ∧ Past supply s' id ∧
        ∀ parent, e.component.parentId = some parent → Past supply s' parent) :
    Orderly supply s' where
  keyed id e he := (entries id e he).elim (o.keyed id e) And.left
  unignored := frame.ignoredKeys.trans o.unignored
  unarmed := frame.failNext.trans o.unarmed
  defaults := frame.defaults ▸ o.defaults
  injective := o.injective
  stored id e he := (entries id e he).elim (fun h => (o.stored id e h).mono frame) fun h => h.2.1
  parents id e parent he hp := (entries id e he).elim
    (fun h => (o.parents id e parent h hp).mono frame) fun h => h.2.2 parent hp

/-! ### Attempts -/

section Attempts

variable {α : Type} {kind : MutationKind} {change : Except Failure (α × Server)}

/-- The failure that stays due after a call of a kind. -/
def dueAfter (kind? due : Option MutationKind) : Option MutationKind :=
  if due = kind? then none else due

/-- An attempt that fails changes nothing but what is due to fail. -/
theorem attempt_error {e : Failure} (h : s.attempt kind change = (.error e, s')) :
    s' = { s with failNext := dueAfter (some kind) s.failNext } := by
  unfold attempt at h
  unfold dueAfter
  by_cases due : s.failNext = some kind
  · rw [if_pos due] at h ⊢
    cases h
    rfl
  · rw [if_neg due] at h ⊢
    cases change <;> cases h
    rfl

theorem attempt_ok {a : α} (h : s.attempt kind change = (.ok a, s')) : change = .ok (a, s') := by
  unfold attempt at h
  split at h
  · cases h
  · cases change <;> cases h
    rfl

theorem unarmed_of_attempt {a : α} (h : s.attempt kind change = (.ok a, s')) :
    dueAfter (some kind) s.failNext = s.failNext := by
  unfold attempt at h
  unfold dueAfter
  by_cases due : s.failNext = some kind
  · rw [if_pos due] at h
    cases h
  · rw [if_neg due]

end Attempts

/-! ### Creating -/

theorem get?_put (supply : Supply) (s : Server) (realm : String) (c : Component) :
    (s.put supply realm c).2.components.get? k =
      if k = (s.put supply realm c).1 then
        some ⟨realm, s.insertions + 1,
          { c.withParent realm with id := some (s.put supply realm c).1 }⟩
      else s.components.get? k :=
  SortedMap.get?_insert _ _ _ _

theorem put_frame (supply : Supply) (s : Server) (realm : String) (c : Component) :
    Frame s (s.put supply realm c).2 := by
  refine ⟨rfl, rfl, rfl, ?_⟩
  simp only [put]
  split <;> omega

/-- What is stored does not get its id again. -/
theorem put_past (injective : ∀ m n, supply.id m = supply.id n → m = n)
    (hid : ∀ i, c.id = some i → Past supply s i) (realm : String) :
    Past supply (s.put supply realm c).2 (s.put supply realm c).1 := by
  cases hc : c.id with
  | some i =>
    have same : (s.put supply realm c).1 = i := by simp [put, hc]
    rw [same]
    exact (hid i hc).mono (put_frame supply s realm c)
  | none =>
    have same : (s.put supply realm c).1 = supply.id s.idsIssued := by simp [put, hc]
    rw [same]
    exact past_of_issued injective (by simp [put, hc])

theorem provision_cons (supply : Supply) (realm parent : String) (m : Component)
    (mappers : List Component) (s : Server) :
    s.provision supply realm parent (m :: mappers) =
      (s.put supply realm { m with parentId := some parent }).2.provision supply realm parent
        mappers := rfl

/-- The default mappers of a new component get new ids below it, and nothing else changes. -/
theorem provision_effect (supply : Supply) (realm parent : String) (mappers : List Component)
    (new : ∀ m ∈ mappers, m.id = none) (s : Server) :
    Frame s (s.provision supply realm parent mappers) ∧
      (∀ k, Past supply s k →
        (s.provision supply realm parent mappers).components.get? k = s.components.get? k) ∧
      ∀ k e, (s.provision supply realm parent mappers).components.get? k = some e →
        s.components.get? k = some e ∨
          ∃ n m, s.idsIssued ≤ n ∧ n < (s.provision supply realm parent mappers).idsIssued ∧
            k = supply.id n ∧ m ∈ mappers ∧ e.realm = realm ∧
            e.component = { m with id := some k, parentId := some parent } := by
  induction mappers generalizing s with
  | nil => exact ⟨Frame.refl s, fun _ _ => rfl, fun _ _ h => .inl h⟩
  | cons m mappers ih =>
    have hm : m.id = none := new m List.mem_cons_self
    have next : (s.put supply realm { m with parentId := some parent }).1 =
        supply.id s.idsIssued := by
      simp [put, hm]
    have issued : (s.put supply realm { m with parentId := some parent }).2.idsIssued =
        s.idsIssued + 1 := by
      simp [put, hm]
    have step := put_frame supply s realm { m with parentId := some parent }
    obtain ⟨frame, kept, added⟩ := ih (fun m hm => new m (List.mem_cons_of_mem _ hm))
      (s.put supply realm { m with parentId := some parent }).2
    rw [provision_cons]
    refine ⟨step.trans frame, fun k hk => ?_, fun k e he => ?_⟩
    · have other : k ≠ supply.id s.idsIssued := fun same => hk _ (Nat.le_refl _) same.symm
      rw [kept k (hk.mono step), get?_put, next, if_neg other]
    · rcases added k e he with he | ⟨n, m', hn, hlt, hk, hm', hr, hc⟩
      · rw [get?_put, next] at he
        split at he
        · rename_i hk
          cases he
          have := frame.idsIssued
          refine .inr ⟨s.idsIssued, m, Nat.le_refl _, by omega, hk, List.mem_cons_self, rfl, ?_⟩
          simp [Component.withParent, hk]
        · exact .inl he
      · exact .inr ⟨n, m', by omega, hlt, hk, List.mem_cons_of_mem _ hm', hr, hc⟩

theorem stamp_server (supply : Supply) (s : Server) (c : Component) :
    ∃ n, (s.stamp supply c).2 = { s with timesIssued := n } := by
  unfold stamp
  split
  · exact ⟨_, rfl⟩
  · exact ⟨s.timesIssued, rfl⟩

/-- The default mappers that come with a component. -/
def provided (s : Server) (c : Component) : List Component :=
  (c.providerId.bind s.defaults.get?).getD []

/-- The mappers that a creation provides are default ones of some provider. -/
theorem exists_of_mem_provided {m : Component} (h : m ∈ s.provided c) :
    ∃ provider mappers, s.defaults.get? provider = some mappers ∧ m ∈ mappers := by
  cases hp : c.providerId.bind s.defaults.get? with
  | none => simp [provided, hp] at h
  | some mappers =>
    obtain ⟨provider, -, hd⟩ := Option.bind_eq_some_iff.mp hp
    rw [provided, hp, Option.getD_some] at h
    exact ⟨provider, mappers, hd, h⟩

/-- Stores a new component with its default mappers; gives its id. -/
def establish (supply : Supply) (s : Server) (c : Component) (realm : String) : String × Server :=
  let stamped := s.stamp supply (s.accept none c)
  let put := stamped.2.put supply realm stamped.1
  (put.1, put.2.provision supply realm put.1 ((c.providerId.bind put.2.defaults.get?).getD []))

/-- At some time the component is stored as it is accepted, and then the default mappers. -/
theorem establish_eq (supply : Supply) (s : Server) (c : Component) (realm : String) :
    ∃ n y, Stamped (s.accept none c) y ∧ s.establish supply c realm =
      let put := put supply { s with timesIssued := n } realm y
      (put.1, put.2.provision supply realm put.1 (s.provided c)) := by
  obtain ⟨n, timed⟩ := stamp_server supply s (s.accept none c)
  refine ⟨n, (s.stamp supply (s.accept none c)).1, stamped_stamp .., ?_⟩
  simp only [establish, timed]
  rfl

theorem provision_isSome (supply : Supply) (realm parent : String) (mappers : List Component)
    (stored : (s.components.get? id).isSome) :
    ((s.provision supply realm parent mappers).components.get? id).isSome := by
  induction mappers generalizing s with
  | nil => exact stored
  | cons m mappers ih =>
    rw [provision_cons]
    refine ih ?_
    rw [get?_put]
    split
    · rfl
    · exact stored

/-- A creation finds what it has stored. -/
theorem exists_established (supply : Supply) (s : Server) (c : Component) (realm : String) :
    ∃ e, (s.establish supply c realm).2.components.get? (s.establish supply c realm).1 = some e := by
  refine Option.isSome_iff_exists.mp (provision_isSome supply realm _ _ ?_)
  simp only [get?_put, establish, if_true, Option.isSome_some]

/-- A creation can only fail as it is due to. -/
theorem create_eq (supply : Supply) (s : Server) (c : Component) (realm : String) :
    ∃ e, (s.establish supply c realm).2.components.get? (s.establish supply c realm).1 = some e ∧
      s.create supply c realm = s.attempt .create
        (.ok (redact e.component, (s.establish supply c realm).2.record .create e.component)) := by
  obtain ⟨e, stored⟩ := exists_established supply s c realm
  refine ⟨e, stored, ?_⟩
  simp only [establish] at stored ⊢
  simp only [Server.create, stored]

theorem create_ok {reply : Component} (h : s.create supply c realm = (.ok reply, s')) :
    ∃ e, (s.establish supply c realm).2.components.get? (s.establish supply c realm).1 = some e ∧
      reply = redact e.component ∧ s' = (s.establish supply c realm).2.record .create e.component := by
  obtain ⟨e, stored, created⟩ := create_eq supply s c realm
  rw [created] at h
  cases attempt_ok h
  exact ⟨e, stored, rfl, rfl⟩

/-- What storing a component does whose default mappers have no ids of their own: it stores `x` under
`id`, and the default mappers under new ids below it, whatever the server ignores. -/
structure Established (supply : Supply) (s : Server) (c : Component) (realm id : String)
    (x : Component) (s' : Server) : Prop where
  id_eq : id = c.id.getD (supply.id s.idsIssued)
  frame : Frame s s'
  used : c.id = none → s.idsIssued < s'.idsIssued
  form : ∃ y, Stamped (s.accept none c) y ∧
    x = { y with id := some id, parentId := some (c.parentId.getD realm) }
  stored : (∀ m n, supply.id m = supply.id n → m = n) → (∀ i, c.id = some i → Past supply s i) →
    Past supply s' id ∧ ∃ e, s'.components.get? id = some e ∧ e.realm = realm ∧ e.component = x
  kept : ∀ k, k ≠ id → Past supply s k → s'.components.get? k = s.components.get? k
  entries : ∀ k e, s'.components.get? k = some e → s.components.get? k = some e ∨
    (k = id ∧ e.realm = realm ∧ e.component = x) ∨
    ∃ n m, k = supply.id n ∧ s.idsIssued ≤ n ∧ (c.id = none → s.idsIssued < n) ∧
      n < s'.idsIssued ∧ m ∈ s.provided c ∧ e.realm = realm ∧
      e.component = { m with id := some k, parentId := some id }

theorem established (new : ∀ provider mappers, s.defaults.get? provider = some mappers →
      ∀ m ∈ mappers, m.id = none) (supply : Supply) (c : Component) (realm : String) :
    ∃ x, Established supply s c realm (s.establish supply c realm).1 x
      (s.establish supply c realm).2 := by
  obtain ⟨n, y, stamped, whole⟩ := establish_eq supply s c realm
  have yid : y.id = c.id := by rw [stamped.rest]; rfl
  have yparent : y.parentId = c.parentId := by rw [stamped.rest]; rfl
  have entry := fun k => get?_put (k := k) supply { s with timesIssued := n } realm y
  have step := put_frame supply { s with timesIssued := n } realm y
  have id_eq : (put supply { s with timesIssued := n } realm y).1 =
      c.id.getD (supply.id s.idsIssued) := by
    simp [put, yid]
  have used : c.id = none →
      (put supply { s with timesIssued := n } realm y).2.idsIssued = s.idsIssued + 1 := by
    intro hc
    simp [put, yid, hc]
  have past := fun injective (hid : ∀ i, c.id = some i → Past supply s i) =>
    put_past (c := y) (s := { s with timesIssued := n }) injective
      (fun i hi => hid i (yid ▸ hi)) realm
  rw [whole]
  generalize put supply { s with timesIssued := n } realm y = placed at entry step id_eq used past
  obtain ⟨id, t⟩ := placed
  simp only at entry step id_eq used past ⊢
  have frame₁ : Frame s t := ⟨step.ignoredKeys, step.failNext, step.defaults, step.idsIssued⟩
  have unnumbered : ∀ m ∈ s.provided c, m.id = none := by
    intro m hm
    obtain ⟨provider, mappers, hd, hm⟩ := exists_of_mem_provided hm
    exact new provider mappers hd m hm
  obtain ⟨frame₂, kept, added⟩ := provision_effect supply realm id (s.provided c) unnumbered t
  have form : ({ y.withParent realm with id := some id } : Component) =
      { y with id := some id, parentId := some (c.parentId.getD realm) } := by
    rw [Component.withParent, yparent]
    cases c.parentId <;> rfl
  rw [form] at entry
  refine ⟨_, id_eq, frame₁.trans frame₂, fun hc => ?_, ⟨y, stamped, rfl⟩,
    fun injective hid => ?_, fun k hk old => ?_, fun k e he => ?_⟩
  · exact Nat.lt_of_lt_of_le (by rw [used hc]; exact Nat.lt_succ_self _) frame₂.idsIssued
  · have placed := past injective hid
    exact ⟨placed.mono frame₂, _, (kept id placed).trans ((entry id).trans (if_pos rfl)), rfl, rfl⟩
  · exact (kept k (old.mono frame₁)).trans ((entry k).trans (if_neg hk))
  · rcases added k e he with he | ⟨j, m, hj, hlt, hk, hm, hr, hc⟩
    · rw [entry] at he
      split at he
      · rename_i hk
        cases he
        exact .inr (.inl ⟨hk, rfl, rfl⟩)
      · exact .inl he
    · refine .inr (.inr ⟨j, m, hk, Nat.le_trans frame₁.idsIssued hj, ?_, hlt, hm, hr, hc⟩)
      intro hc
      have := used hc
      omega

theorem record_frame (s : Server) (kind : MutationKind) (c : Component) :
    Frame s (s.record kind c) := ⟨rfl, rfl, rfl, Nat.le_refl _⟩

/-- What a creation that succeeds leaves in the store, whatever the server ignores: the component
under its id or a new one, and default mappers under newer ids below it. -/
structure Grown (supply : Supply) (s : Server) (c : Component) (realm : String) (reply : Component)
    (id : String) (s' : Server) : Prop where
  id_eq : id = c.id.getD (supply.id s.idsIssued)
  frame : Frame s s'
  used : c.id = none → s.idsIssued < s'.idsIssued
  stored : ∃ e, s'.components.get? id = some e ∧ reply = redact e.component
  kept : ∀ k, k ≠ id → Past supply s k → s'.components.get? k = s.components.get? k
  entries : ∀ k e, s'.components.get? k = some e → s.components.get? k = some e ∨
    (k = id ∧ e.realm = realm ∧ e.component.name = c.name ∧
      e.component.providerType = c.providerType ∧
      e.component.parentId = some (c.parentId.getD realm)) ∨
    ∃ n provider mappers m, k = supply.id n ∧ s.idsIssued ≤ n ∧ (c.id = none → s.idsIssued < n) ∧
      n < s'.idsIssued ∧ s.defaults.get? provider = some mappers ∧ m ∈ mappers ∧
      e.component.name = m.name ∧ e.component.providerType = m.providerType ∧
      e.component.parentId = some id

theorem create_entry (new : ∀ provider mappers, s.defaults.get? provider = some mappers →
      ∀ m ∈ mappers, m.id = none) {reply : Component}
    (h : s.create supply c realm = (.ok reply, s')) :
    ∃ id, Grown supply s c realm reply id s' := by
  obtain ⟨e, there, rfl, rfl⟩ := create_ok h
  obtain ⟨x, made⟩ := established new supply c realm
  obtain ⟨y, stamped, form⟩ := made.form
  have name : x.name = c.name := by rw [form, stamped.rest]; rfl
  have type : x.providerType = c.providerType := by rw [form, stamped.rest]; rfl
  refine ⟨_, made.id_eq, made.frame.trans (record_frame _ _ _), made.used, ⟨e, there, rfl⟩,
    made.kept, fun k e' he' => ?_⟩
  rcases made.entries k e' he' with old | ⟨hk, hr, rfl⟩ | ⟨n, m, hk, hn, hlt, hn', hm, -, hc⟩
  · exact .inl old
  · exact .inr (.inl ⟨hk, hr, name, type, by rw [form]⟩)
  · obtain ⟨provider, mappers, hd, hm⟩ := exists_of_mem_provided hm
    exact .inr (.inr ⟨n, provider, mappers, m, hk, hn, hlt, hn', hd, hm, by rw [hc], by rw [hc],
      by rw [hc]⟩)

/-- A creation stores nothing under an id that is not given out any more, unless it is told to. -/
theorem Grown.id_ne {reply : Component} (grown : Grown supply s c realm reply id s')
    (past : Past supply s k) (other : c.id ≠ some k) : k ≠ id := by
  rw [grown.id_eq]
  cases hid : c.id with
  | some i => exact fun same => other (by rw [hid, same, Option.getD_some])
  | none => exact fun same => past _ (Nat.le_refl _) same.symm

/-- What a creation does: it stores `x` under `id`, and the default mappers of its provider under
new ids below it. -/
structure Created (supply : Supply) (s : Server) (c : Component) (realm id : String)
    (x : Component) (s' : Server) : Prop where
  frame : Frame s s'
  id_eq : id = c.id.getD (supply.id s.idsIssued)
  past : Past supply s' id
  stored : ∃ e, s'.components.get? id = some e ∧ e.realm = realm ∧ e.component = x
  form : ∃ y, Stamped (settle none c) y ∧
    x = { y with id := some id, parentId := some (c.parentId.getD realm) }
  kept : ∀ k, k ≠ id → Past supply s k → s'.components.get? k = s.components.get? k
  added : ∀ k e, k ≠ id → s'.components.get? k = some e → s.components.get? k = some e ∨
    ¬Past supply s k ∧ Past supply s' k ∧ e.realm = realm ∧
      ∃ provider mappers m, s.defaults.get? provider = some mappers ∧ m ∈ mappers ∧
        e.component = { m with id := some k, parentId := some id }

/-- A creation that is not due to fail succeeds if a given id and the new ones differ. -/
theorem create_succeeds (unignored : s.ignoredKeys = []) (unarmed : s.failNext ≠ some .create)
    (new : ∀ provider mappers, s.defaults.get? provider = some mappers → ∀ m ∈ mappers, m.id = none)
    (injective : ∀ m n, supply.id m = supply.id n → m = n)
    (hid : ∀ i, c.id = some i → Past supply s i) (realm : String) :
    ∃ id x s', s.create supply c realm = (.ok (redact x), s') ∧
      Created supply s c realm id x s' := by
  obtain ⟨e, there, created⟩ := create_eq supply s c realm
  obtain ⟨x, made⟩ := established new supply c realm
  obtain ⟨past, e', stored, hr, hx⟩ := made.stored injective hid
  cases there.symm.trans stored
  have form := made.form
  rw [accept_eq_settle unignored] at form
  rw [attempt, if_neg unarmed, hx] at created
  refine ⟨_, x, _, created, made.frame.trans (record_frame _ _ _), made.id_eq, past,
    ⟨e, stored, hr, hx⟩, form, made.kept, fun k e' hk he' => ?_⟩
  rcases made.entries k e' he' with old | ⟨same, -⟩ | ⟨n, m, rfl, hn, -, hlt, hm, hr', hc⟩
  · exact .inl old
  · exact absurd same hk
  · obtain ⟨provider, mappers, hd, hm⟩ := exists_of_mem_provided hm
    exact .inr ⟨fun old => old n hn rfl, past_of_issued injective hlt, hr', provider, mappers, m,
      hd, hm, hc⟩

theorem create_effect (o : Orderly supply s) (hid : ∀ i, c.id = some i → Past supply s i)
    (realm : String) : ∃ id x s', s.create supply c realm = (.ok (redact x), s') ∧
      Created supply s c realm id x s' :=
  create_succeeds o.unignored (by simp [o.unarmed]) o.defaults o.injective hid realm

theorem Created.orderly {x : Component} (h : Created supply s c realm id x s')
    (o : Orderly supply s) (hparent : Past supply s (c.parentId.getD realm)) :
    Orderly supply s' := by
  refine o.of_entries h.frame fun k e he => ?_
  by_cases hk : k = id
  · obtain ⟨e', he', -, hx⟩ := h.stored
    obtain ⟨y, -, hy⟩ := h.form
    rw [hk, he'] at he
    cases he
    refine .inr ⟨by rw [hx, hy, hk], hk ▸ h.past, fun parent hp => ?_⟩
    rw [hx, hy] at hp
    cases hp
    exact hparent.mono h.frame
  · rcases h.added k e hk he with he | ⟨-, past, -, -, -, m, -, -, hm⟩
    · exact .inl he
    · refine .inr ⟨by rw [hm], past, fun parent hp => ?_⟩
      rw [hm] at hp
      cases hp
      exact h.past

/-! ### Updating -/

/-- What an update does: it stores `x` in place of what `id` was. -/
structure Updated (s : Server) (c : Component) (id : String) (e : Stored) (x : Component)
    (s' : Server) : Prop where
  frame : Frame s s'
  components : s'.components = s.components.insert id { e with component := x }
  form : ∃ y, Stamped (settle (some e.component) c) y ∧
    x = { y with parentId := c.parentId.or e.component.parentId }

/-- Notes the time in a component that takes the place of one with a time. -/
def renew (supply : Supply) (s : Server) (e : Stored) (c : Component) : Component × Server :=
  if (e.component.configValue? lastSyncKey).isSome then s.stamp supply c else (c, s)

/-- Stores a component in place of another one. -/
def supplant (s : Server) (id : String) (e : Stored) (c : Component) : Server :=
  let accepted := { c with parentId := c.parentId.or e.component.parentId }
  { s.record .update accepted with
    components := s.components.insert id { e with component := accepted } }

theorem update_eq {id : String} (hid : c.id = some id) (s : Server) :
    s.update supply c realm = s.attempt .update
      (match s.stored? id realm with
        | none => .error (missing id)
        | some e =>
          let renewed := s.renew supply e (s.accept (some e.component) c)
          .ok ((), renewed.2.supplant id e renewed.1)) := by
  unfold update
  rw [hid]
  rfl

theorem renew_server (supply : Supply) (s : Server) (e : Stored) (c : Component) :
    ∃ n, (s.renew supply e c).2 = { s with timesIssued := n } := by
  unfold renew
  split
  · exact stamp_server supply s c
  · exact ⟨s.timesIssued, rfl⟩

theorem stamped_renew (supply : Supply) (s : Server) (e : Stored) (c : Component) :
    Stamped c (s.renew supply e c).1 := by
  unfold renew
  split
  · exact stamped_stamp supply s c
  · exact .inl rfl

/-- At some time, an update that succeeds puts what it accepts in the place of what has its id. -/
theorem update_supplants (h : s.update supply c realm = (.ok (), s')) :
    ∃ id e y n, c.id = some id ∧ s.components.get? id = some e ∧ e.realm = realm ∧
      Stamped (s.accept (some e.component) c) y ∧
      s' = ({ s with timesIssued := n } : Server).supplant id e y := by
  cases hid : c.id with
  | none =>
    have changed := attempt_ok h
    simp [hid] at changed
  | some id =>
    rw [update_eq hid] at h
    have changed := attempt_ok h
    cases hs : s.stored? id realm with
    | none => simp [hs] at changed
    | some e =>
      obtain ⟨he, hr⟩ := stored?_eq_some_iff.mp hs
      obtain ⟨n, renewed⟩ := renew_server supply s e (s.accept (some e.component) c)
      have stamped := stamped_renew supply s e (s.accept (some e.component) c)
      rw [hs] at changed
      cases changed
      exact ⟨id, e, _, n, rfl, he, hr, stamped, by rw [renewed]⟩

/-- What an update stores that succeeds, whatever the server ignores. -/
theorem update_entry (h : s.update supply c realm = (.ok (), s')) :
    ∃ id e y, c.id = some id ∧ s.components.get? id = some e ∧ e.realm = realm ∧
      Stamped (s.accept (some e.component) c) y ∧ Frame s s' ∧
      s'.components = s.components.insert id
        { e with component := { y with parentId := c.parentId.or e.component.parentId } } := by
  obtain ⟨id, e, y, n, hid, he, hr, stamped, rfl⟩ := update_supplants h
  have parent : y.parentId = c.parentId := by rw [stamped.rest]; rfl
  refine ⟨id, e, y, hid, he, hr, stamped, ⟨rfl, rfl, rfl, Nat.le_refl _⟩, ?_⟩
  rw [supplant, parent]

/-- An update that succeeds stores the name and the type that it sends. -/
theorem update_names (h : s.update supply c realm = (.ok (), s')) :
    ∃ id e, c.id = some id ∧ e.realm = realm ∧ e.component.name = c.name ∧
      e.component.providerType = c.providerType ∧ Frame s s' ∧
      s'.components = s.components.insert id e := by
  obtain ⟨id, e, y, hid, -, hr, stamped, frame, components⟩ := update_entry h
  have name : y.name = c.name := by rw [stamped.rest]; rfl
  have type : y.providerType = c.providerType := by rw [stamped.rest]; rfl
  exact ⟨id, { e with component := { y with parentId := c.parentId.or e.component.parentId } },
    hid, hr, name, type, frame, components⟩

theorem update_succeeds (supply : Supply) (hid : c.id = some id)
    (stored : s.stored? id realm = some e) (unarmed : s.failNext ≠ some .update) :
    ∃ s', s.update supply c realm = (.ok (), s') := by
  have ok : (s.update supply c realm).1 = .ok () := by
    unfold update attempt
    rw [if_neg unarmed, hid]
    simp only [stored]
  exact ⟨_, Prod.ext ok rfl⟩

theorem update_effect (supply : Supply) (o : Orderly supply s) (hid : c.id = some id)
    (he : s.components.get? id = some e) (hr : e.realm = realm) :
    ∃ x s', s.update supply c realm = (.ok (), s') ∧ Updated s c id e x s' := by
  obtain ⟨s', updated⟩ :=
    update_succeeds supply hid (stored?_eq_some_iff.mpr ⟨he, hr⟩) (by simp [o.unarmed])
  obtain ⟨_, _, y, hid', he', -, stamped, frame, components⟩ := update_entry updated
  cases hid.symm.trans hid'
  cases he.symm.trans he'
  rw [accept_eq_settle o.unignored] at stamped
  exact ⟨_, s', updated, frame, components, y, stamped, rfl⟩

/-- An update that succeeds has an id, under which a component of the realm is stored. -/
theorem update_ok (h : s.update supply c realm = (.ok (), s')) :
    ∃ id e, c.id = some id ∧ s.components.get? id = some e ∧ e.realm = realm := by
  obtain ⟨id, e, -, hid, he, hr, -⟩ := update_entry h
  exact ⟨id, e, hid, he, hr⟩

theorem Updated.get? {x : Component} (h : Updated s c id e x s') :
    s'.components.get? k =
      if k = id then some { e with component := x } else s.components.get? k := by
  rw [h.components, SortedMap.get?_insert]

theorem Updated.orderly {x : Component} (h : Updated s c id e x s') (o : Orderly supply s)
    (hid : c.id = some id) (he : s.components.get? id = some e)
    (hparent : ∀ parent, c.parentId = some parent → Past supply s parent) :
    Orderly supply s' := by
  refine o.of_entries h.frame fun k e' he' => ?_
  rw [h.get?] at he'
  split at he'
  · rename_i hk
    cases he'
    obtain ⟨y, stamped, hx⟩ := h.form
    refine .inr ⟨?_, hk ▸ (o.stored id e he).mono h.frame, fun parent hp => ?_⟩
    · rw [hx, stamped.rest, hk]
      exact hid
    · rw [hx] at hp
      cases hc : c.parentId with
      | some p =>
        simp only [hc, Option.some_or, Option.some.injEq] at hp
        exact (hparent parent (hp ▸ hc)).mono h.frame
      | none =>
        simp only [hc, Option.none_or] at hp
        exact (o.parents id e parent he hp).mono h.frame
  · exact .inl he'

/-! ### Deleting -/

/-- What a deletion does: it drops an entry and those below it. -/
structure Deleted (s : Server) (id : String) (s' : Server) : Prop where
  frame : Frame s s'
  gone : s'.components.get? id = none
  below : ∀ k, s.Below k id → s'.components.get? k = none
  kept : ∀ k, k ≠ id → ¬s.Below k id → s'.components.get? k = s.components.get? k

/-- A deletion that succeeds drops what has its id and what is below it. -/
theorem delete_drops (h : s.delete id realm = (.ok (), s')) :
    ∃ e, s.components.get? id = some e ∧ e.realm = realm ∧
      s' = ({ s with components := s.components.filter fun key _ =>
        !(id :: s.descendants id).contains key } : Server).record .delete e.component := by
  have changed := attempt_ok h
  cases hs : s.stored? id realm with
  | none => simp [hs] at changed
  | some e =>
    simp only [hs, Except.ok.injEq, Prod.mk.injEq, true_and] at changed
    obtain ⟨he, hr⟩ := stored?_eq_some_iff.mp hs
    exact ⟨e, he, hr, changed.symm⟩

/-- What a deletion does that succeeds, whatever the server ignores. -/
theorem delete_entry (h : s.delete id realm = (.ok (), s')) : Deleted s id s' := by
  obtain ⟨e, -, -, rfl⟩ := delete_drops h
  refine ⟨⟨rfl, rfl, rfl, Nat.le_refl _⟩, ?_, fun k hk => ?_, fun k hk hb => ?_⟩ <;>
    simp only [record, SortedMap.get?_filter]
  · cases s.components.get? id <;> simp [Option.filter]
  · have := mem_descendants.mpr hk
    cases s.components.get? k <;> simp [Option.filter, this]
  · have : k ∉ s.descendants id := fun h => hb (mem_descendants.mp h)
    cases s.components.get? k <;> simp [Option.filter, this, hk]

theorem delete_succeeds (stored : s.stored? id realm = some e)
    (unarmed : s.failNext ≠ some .delete) : ∃ s', s.delete id realm = (.ok (), s') := by
  have ok : (s.delete id realm).1 = .ok () := by
    unfold delete attempt
    rw [if_neg unarmed]
    simp only [stored]
  exact ⟨_, Prod.ext ok rfl⟩

theorem delete_effect (o : Orderly supply s) (he : s.components.get? id = some e)
    (hr : e.realm = realm) : ∃ s', s.delete id realm = (.ok (), s') ∧ Deleted s id s' := by
  obtain ⟨s', succeeds⟩ :=
    delete_succeeds (stored?_eq_some_iff.mpr ⟨he, hr⟩) (by simp [o.unarmed])
  exact ⟨s', succeeds, delete_entry succeeds⟩

theorem delete_ok (h : s.delete id realm = (.ok (), s')) :
    ∃ e, s.components.get? id = some e ∧ e.realm = realm := by
  obtain ⟨e, he, hr, -⟩ := delete_drops h
  exact ⟨e, he, hr⟩

theorem Deleted.get?_of_some (h : Deleted s id s') (he : s'.components.get? k = some e) :
    s.components.get? k = some e := by
  by_cases hk : k = id
  · simp [hk, h.gone] at he
  · by_cases hb : s.Below k id
    · simp [h.below k hb] at he
    · rwa [h.kept k hk hb] at he

theorem Deleted.orderly (h : Deleted s id s') (o : Orderly supply s) : Orderly supply s' :=
  o.of_entries h.frame fun _ _ he => .inl (h.get?_of_some he)

/-! ### Calls -/

/-- What a call leaves in the store: what was there, or what a call of its kind does that
succeeds. -/
inductive Answered (supply : Supply) (s : Server) : Call → Server → Prop
  | kept {call : Call} {s' : Server} (components : s'.components = s.components)
    (defaults : s'.defaults = s.defaults) (idsIssued : s'.idsIssued = s.idsIssued) :
    Answered supply s call s'
  | created {c reply : Component} {realm id : String} {s' : Server}
    (grown : Grown supply s c realm reply id s') : Answered supply s (.create c realm) s'
  | updated {c : Component} {realm id : String} {e : Stored} {s' : Server} (hid : c.id = some id)
    (name : e.component.name = c.name) (type : e.component.providerType = c.providerType)
    (frame : Frame s s') (components : s'.components = s.components.insert id e) :
    Answered supply s (.update c realm) s'
  | deleted {realm id : String} {s' : Server} (deleted : Deleted s id s') :
    Answered supply s (.delete id realm) s'

/-- A call that fails leaves a server as it is, but that a failure may not be due any more. -/
theorem answer_error {call : Call} {e : Failure} (h : answer supply call s = (.error e, s')) :
    s' = { s with failNext := dueAfter call.kind? s.failNext } := by
  cases call with
  | find | get | children => cases h
  | create | update | delete => exact attempt_error h

theorem answered (new : ∀ provider mappers, s.defaults.get? provider = some mappers →
      ∀ m ∈ mappers, m.id = none) (call : Call) :
    Answered supply s call (answer supply call s).2 := by
  rcases h : answer supply call s with ⟨e | reply, s'⟩
  · rw [answer_error h]
    exact .kept rfl rfl rfl
  · cases call with
    | find | get | children =>
      cases h
      exact .kept rfl rfl rfl
    | create c realm =>
      obtain ⟨id, grown⟩ := create_entry new h
      exact .created grown
    | update c realm =>
      obtain ⟨id, e, hid, -, name, type, frame, components⟩ := update_names h
      exact .updated hid name type frame components
    | delete id realm => exact .deleted (delete_entry h)

theorem Answered.defaults {call : Call} (h : Answered supply s call s') :
    s'.defaults = s.defaults := by
  cases h with
  | kept _ defaults => exact defaults
  | created grown => exact grown.frame.defaults
  | updated _ _ _ frame => exact frame.defaults
  | deleted deleted => exact deleted.frame.defaults

theorem Answered.idsIssued {call : Call} (h : Answered supply s call s') :
    s.idsIssued ≤ s'.idsIssued := by
  cases h with
  | kept _ _ idsIssued => exact Nat.le_of_eq idsIssued.symm
  | created grown => exact grown.frame.idsIssued
  | updated _ _ _ frame => exact frame.idsIssued
  | deleted deleted => exact deleted.frame.idsIssued

end Server

end UserFederation
