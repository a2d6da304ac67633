import UserFederation.Proofs.Matching
import UserFederation.Proofs.Survey

/-! What a run finds on a server. Reading changes nothing there, so the survey of a run is a
function of the server (`survey_run`); what it finds is a stored component with the mappers below
it. -/

namespace UserFederation

namespace Server

open Dialogue

variable {supply : Supply} {s : Server} {realm : String}

/-- The component that a lookup finds. -/
def located (s : Server) (realm : String) : (id name : Option String) →
    Except Failure (Option Component)
  | some id, _ => .ok (s.get id realm)
  | none, some name => Component.unique .federation name (s.find realm federationType name)
  | none, none => .error (.invalid .unidentified)

/-- A federation as it is found, of its id and its component as it is shown. -/
def shown (s : Server) (realm id : String) (c : Component) : Federation :=
  Federation.ofParts c (Component.sortByName (s.children id realm))

/-- A federation as a run finds it, normalized. -/
def normalized (s : Server) (realm f : String) (e : Stored) : Federation :=
  (s.shown realm f (redact e.component)).undoEcho

/-- The federation of an id or a name with its mappers, as the server shows it. -/
def resolved (s : Server) (realm : String) (id name : Option String) :
    Except Failure (Option Federation) :=
  (s.located realm id name).map fun found => found.map fun c =>
    match c.id with
    | none => .ofParts c []
    | some id => s.shown realm id c

/-- What the first half of a run works out. -/
def surveyed (s : Server) (d : Declaration) : Except Failure (Option Federation × Changeset) :=
  match d.validate, s.resolved d.realm d.id d.name with
  | .error e, _ => .error e
  | .ok _, .error e => .error e
  | .ok _, .ok found =>
    (Changeset.of d (found.map Federation.undoEcho)).map fun changes =>
      (found.map Federation.undoEcho, changes)

theorem fetchMappers_run (realm id : String) :
    (Federation.fetchMappers realm id).run (answer supply) s =
      (.ok (Component.sortByName (s.children id realm)), s) := rfl

theorem lookup_run (realm : String) (id name : Option String) :
    (Federation.lookup realm id name).run (answer supply) s = (s.located realm id name, s) := by
  match id, name with
  | some id, _ => rfl
  | none, some name =>
    exact run_lift (Component.unique .federation name (s.find realm federationType name)) s
  | none, none => rfl

theorem resolve_run (realm : String) (id name : Option String) :
    (Federation.resolve realm id name).run (answer supply) s = (s.resolved realm id name, s) := by
  simp only [Federation.resolve, bind_eq, run_bind, lookup_run, resolved]
  cases s.located realm id name with
  | error e => rfl
  | ok found =>
    cases found with
    | none => rfl
    | some c =>
      cases hid : c.id with
      | none => simp [hid, Except.map]
      | some id => simp [hid, Except.map, fetchMappers_run, run_bind, shown]

theorem survey_run (d : Declaration) :
    (Reconcile.survey d).run (answer supply) s = (s.surveyed d, s) := by
  simp only [Reconcile.survey, run_bind, run_lift, resolve_run, surveyed]
  cases d.validate with
  | error e => rfl
  | ok _ =>
    cases hf : s.resolved d.realm d.id d.name with
    | error e => simp only [hf]
    | ok found =>
      simp only [hf]
      cases Changeset.of d (found.map Federation.undoEcho) <;> rfl

/-- A run on a server acts on what its survey finds. -/
theorem reconcile_run (d : Declaration) (mode : RunMode) :
    (reconcile d mode).run (answer supply) s =
      match s.surveyed d with
      | .ok (before, changes) => (Reconcile.conclude d mode before changes).run (answer supply) s
      | .error e => (.error e, s) := by
  rw [Reconcile.reconcile_eq, run_bind, survey_run]
  cases s.surveyed d <;> rfl

/-! ### The federation that is found -/

/-- The federation that a declaration is about: the component with the id that this gives, or the
only federation with the name that it gives. -/
def Found (s : Server) (d : Declaration) (f : String) (e : Stored) : Prop :=
  s.components.get? f = some e ∧ e.realm = d.realm ∧ (d.id = some f ∨ d.id = none ∧
    e.component.providerType = some federationType ∧ d.name.isSome ∧ e.component.name = d.name ∧
      ∀ k e', s.components.get? k = some e' → e'.realm = d.realm →
        e'.component.providerType = some federationType → e'.component.name = d.name → k = f)

/-- There is no federation that a declaration is about. -/
def Unfound (s : Server) (d : Declaration) : Prop :=
  (∀ id, d.id = some id → s.stored? id d.realm = none) ∧
    (d.id = none → d.name.isSome ∧ ∀ k e, s.components.get? k = some e → e.realm = d.realm →
      e.component.providerType = some federationType → e.component.name ≠ d.name)

theorem unique_eq_ok {kind : Kind} {name : String} {listed : List Component}
    {found : Option Component} (h : Component.unique kind name listed = .ok found) :
    listed = found.toList := by
  match listed with
  | [] => cases h; rfl
  | [c] => cases h; rfl
  | _ :: _ :: _ => cases h

theorem Keyed.located_eq_ok (keyed : s.Keyed) {d : Declaration} {found : Option Component}
    (h : s.located d.realm d.id d.name = .ok found) :
    (found = none ∧ s.Unfound d) ∨ ∃ f e, found = some (redact e.component) ∧ s.Found d f e := by
  cases hid : d.id with
  | some id =>
    rw [hid, located, Except.ok.injEq, get] at h
    cases hs : s.stored? id d.realm with
    | none =>
      rw [hs] at h
      refine .inl ⟨h.symm, fun i hi => ?_, fun none => ?_⟩
      · cases hid.symm.trans hi
        exact hs
      · cases hid.symm.trans none
    | some e =>
      rw [hs] at h
      obtain ⟨he, hr⟩ := stored?_eq_some_iff.mp hs
      exact .inr ⟨id, e, h.symm, he, hr, .inl hid⟩
  | none =>
    cases hn : d.name with
    | none => simp [hid, hn, located] at h
    | some name =>
      rw [hid, hn, located] at h
      have listed := unique_eq_ok h
      cases found with
      | none =>
        refine .inl ⟨rfl, fun i hi => ?_, fun _ => ⟨by simp [hn], fun k e he hr ht same => ?_⟩⟩
        · cases hid.symm.trans hi
        · have shown := mem_find.mpr ⟨k, e, he, hr, ht, same.trans hn, rfl⟩
          simp [listed] at shown
      | some c =>
        obtain ⟨f, e, he, hr, ht, same, rfl⟩ :=
          mem_find.mp (show c ∈ s.find d.realm federationType name by
            rw [listed]
            exact List.mem_singleton.mpr rfl)
        refine .inr ⟨f, e, rfl, he, hr, .inr ⟨hid, ht, by simp [hn], same.trans hn.symm, ?_⟩⟩
        intro k e' he' hr' ht' same'
        have shown := mem_find.mpr ⟨k, e', he', hr', ht', same'.trans hn, rfl⟩
        rw [listed, Option.toList_some, List.mem_singleton] at shown
        have ids := congrArg Component.id shown
        rw [redact_id, redact_id, keyed k e' he', keyed f e he] at ids
        exact Option.some.inj ids

theorem Found.located {d : Declaration} {f : String} {e : Stored} (h : s.Found d f e)
    (keyed : s.Keyed) : s.located d.realm d.id d.name = .ok (some (redact e.component)) := by
  obtain ⟨he, hr, hid | ⟨hid, ht, named, same, only⟩⟩ := h
  · rw [hid, Server.located, get, stored?_eq_some_iff.mpr ⟨he, hr⟩]
    rfl
  · obtain ⟨name, hn⟩ := Option.isSome_iff_exists.mp named
    have nodup : (s.find d.realm federationType name).Nodup := .of_map _ (keyed.list_nodup _)
    have listed : s.find d.realm federationType name = [redact e.component] := by
      refine List.perm_singleton.mp ((List.perm_ext_iff_of_nodup nodup (by simp)).mpr fun c => ?_)
      rw [List.mem_singleton, mem_find]
      constructor
      · rintro ⟨k, e', he', hr', ht', same', rfl⟩
        cases only k e' he' hr' ht' (same'.trans hn.symm)
        cases he.symm.trans he'
        rfl
      · rintro rfl
        exact ⟨f, e, he, hr, ht, same.trans hn, rfl⟩
    rw [hid, hn, Server.located, listed]
    rfl

theorem Found.unique {d : Declaration} {f f' : String} {e e' : Stored} (h : s.Found d f e)
    (h' : s.Found d f' e') : f = f' ∧ e = e' := by
  have same : f = f' := by
    rcases h.2.2 with hid | ⟨hid, -, -, -, only⟩ <;>
      rcases h'.2.2 with hid' | ⟨hid', ht, -, hn, -⟩
    · exact Option.some.inj (hid.symm.trans hid')
    · cases hid.symm.trans hid'
    · cases hid.symm.trans hid'
    · exact (only f' e' h'.1 h'.2.1 ht hn).symm
  subst same
  exact ⟨rfl, Option.some.inj (h.1.symm.trans h'.1)⟩

/-- What the first half of a run works out: what there is to be found, and the changes in it. -/
theorem Keyed.surveyed_eq_ok (keyed : s.Keyed) {d : Declaration} {before : Option Federation}
    {changes : Changeset} (h : s.surveyed d = .ok (before, changes)) :
    d.validate = .ok () ∧ Changeset.of d before = .ok changes ∧
      ((before = none ∧ s.Unfound d) ∨ ∃ f e, s.Found d f e ∧
        before = some (s.normalized d.realm f e)) := by
  unfold surveyed at h
  cases hv : d.validate with
  | error e => simp [hv] at h
  | ok _ =>
    cases hr : s.resolved d.realm d.id d.name with
    | error e => simp [hv, hr] at h
    | ok found =>
      simp only [hv, hr] at h
      cases hc : Changeset.of d (found.map Federation.undoEcho) with
      | error e => simp [hc, Except.map] at h
      | ok cs =>
        simp only [hc, Except.map, Except.ok.injEq, Prod.mk.injEq] at h
        obtain ⟨rfl, rfl⟩ := h
        refine ⟨rfl, hc, ?_⟩
        unfold resolved at hr
        cases hl : s.located d.realm d.id d.name with
        | error e => simp [hl, Except.map] at hr
        | ok c =>
          simp only [hl, Except.map, Except.ok.injEq] at hr
          rcases keyed.located_eq_ok hl with ⟨rfl, unfound⟩ | ⟨f, e, rfl, found⟩
          · exact .inl ⟨hr ▸ rfl, unfound⟩
          · refine .inr ⟨f, e, found, ?_⟩
            rw [← hr]
            simp only [Option.map_some, redact_id, keyed f e found.1, normalized]

theorem Found.resolved {d : Declaration} {f : String} {e : Stored} (h : s.Found d f e)
    (keyed : s.Keyed) :
    s.resolved d.realm d.id d.name = .ok (some (s.shown d.realm f (redact e.component))) := by
  simp only [Server.resolved, h.located keyed, Except.map, Option.map_some, redact_id,
    keyed f e h.1]

/-- A run that finds a federation works out the changes in it. -/
theorem Found.surveyed {d : Declaration} {f : String} {e : Stored} (h : s.Found d f e)
    (keyed : s.Keyed) (valid : d.validate = .ok ()) :
    s.surveyed d =
      (Changeset.of d (some (s.normalized d.realm f e))).map fun changes =>
        (some (s.normalized d.realm f e), changes) := by
  simp only [Server.surveyed, normalized, valid, h.resolved keyed, Option.map_some]

theorem Found.surveyed_ok {d : Declaration} {f : String} {e : Stored} {changes : Changeset}
    (h : s.Found d f e) (keyed : s.Keyed) (valid : d.validate = .ok ())
    (changed : Changeset.of d (some (s.normalized d.realm f e)) = .ok changes) :
    s.surveyed d = .ok (some (s.normalized d.realm f e), changes) := by
  rw [h.surveyed keyed valid, changed]
  rfl

theorem Unfound.resolved {d : Declaration} (h : s.Unfound d) :
    s.resolved d.realm d.id d.name = .ok none := by
  have missing : s.located d.realm d.id d.name = .ok none := by
    cases hid : d.id with
    | some i =>
      rw [Server.located, get, h.1 i hid]
      rfl
    | none =>
      obtain ⟨named, only⟩ := h.2 hid
      obtain ⟨name, hn⟩ := Option.isSome_iff_exists.mp named
      have listed : s.find d.realm federationType name = [] := by
        refine List.eq_nil_iff_forall_not_mem.mpr fun c hc => ?_
        obtain ⟨k, e, he, hr, ht, same, -⟩ := mem_find.mp hc
        exact only k e he hr ht (same.trans hn.symm)
      rw [hn, Server.located, listed]
      rfl
  rw [Server.resolved, missing]
  rfl

/-- A run that finds nothing works out what is declared. -/
theorem Unfound.surveyed {d : Declaration} (h : s.Unfound d) (valid : d.validate = .ok ()) :
    s.surveyed d = (Changeset.of d none).map fun changes => (none, changes) := by
  simp only [Server.surveyed, valid, h.resolved, Option.map_none]

theorem Unfound.surveyed_ok {d : Declaration} {changes : Changeset} (h : s.Unfound d)
    (valid : d.validate = .ok ()) (changed : Changeset.of d none = .ok changes) :
    s.surveyed d = .ok (none, changes) := by
  rw [h.surveyed valid, changed]
  rfl

/-! ### The mappers that are found -/

/-- The mappers that a run finds are those that are shown, by name. -/
theorem shown_mappers (s : Server) (realm f : String) (c : Component) :
    (s.shown realm f c).undoEcho.mappers = Component.sortByName (s.children f realm) := by
  change Component.sortByName (Component.sortByName (s.children f realm)) = _
  exact Component.sortByName_sortByName _

theorem normalized_mappers (s : Server) (realm f : String) (e : Stored) :
    (s.normalized realm f e).mappers = Component.sortByName (s.children f realm) :=
  shown_mappers s realm f _

theorem normalized_listing (s : Server) (realm f : String) (e : Stored) :
    (s.normalized realm f e).mappers.Perm (s.children f realm) := by
  rw [normalized_mappers]
  exact Component.sortByName_perm _

end Server

end UserFederation
