import Mathlib.Data.List.Forall2
import UserFederation.Proofs.Reachable
import UserFederation.Proofs.Transcript
import UserFederation.Run.Reconcile

/-! What a plan does to the mappers of a federation. `Step` says what one action does as long as the
federation is not deleted along with a mapper, and `execute_effect` what a whole plan does: each
action changes the mapper of one id, and no two of them the same. -/

namespace UserFederation

namespace Mapper.Action

/-- The id that an action gives. -/
def id? : Action → Option String
  | .create mapper | .update mapper => mapper.id
  | .delete id => some id

/-- What an action makes of the mapper of an id below the federation `f`. -/
def Does (f id : String) (before after : Option Component) : Action → Prop
  | .create c => before = none ∧ ∃ y, Server.Stamped (Server.settle none c) y ∧
    after = some { y with id := some id, parentId := some f }
  | .update c => ∃ p y, before = some p ∧ Server.Stamped (Server.settle (some p) c) y ∧
    after = some { y with parentId := some f }
  | .delete _ => after = none

/-- An action that can be carried out: it changes a mapper that is there, or creates one that is
not. -/
def Apt (supply : Supply) (s : Server) (f realm : String) : Action → Prop
  | .create c => c.parentId = some f ∧
    ∀ i, c.id = some i → i ≠ f ∧ s.components.get? i = none ∧ s.Past supply i
  | .update c => (c.parentId = none ∨ c.parentId = some f) ∧
    ∃ i, c.id = some i ∧ (s.mapper? f realm i).isSome
  | .delete i => (s.mapper? f realm i).isSome

end Mapper.Action

namespace Server

open Dialogue Mapper

variable {supply : Supply} {s s' t : Server} {f realm id k : String} {c : Component}

theorem mapper?_of_unstored (h : s.components.get? k = none) : s.mapper? f realm k = none := by
  simp [mapper?, stored?, h]

theorem mapper?_congr (h : s'.components.get? k = s.components.get? k) :
    s'.mapper? f realm k = s.mapper? f realm k := by
  simp only [mapper?, stored?, h]

/-- A federation is stored in the realm, and is not its own mapper. -/
def Rooted (s : Server) (f realm : String) : Prop :=
  ∃ e, s.components.get? f = some e ∧ e.realm = realm ∧ e.component.parentId ≠ some f

theorem Rooted.ne_of_mapper (h : Rooted s f realm) (hm : (s.mapper? f realm k).isSome) : k ≠ f := by
  obtain ⟨m, hm⟩ := Option.isSome_iff_exists.mp hm
  obtain ⟨e, he, -, rfl, hp⟩ := mapper?_eq_some_iff.mp hm
  obtain ⟨e', he', -, hp'⟩ := h
  rintro rfl
  cases he.symm.trans he'
  exact hp' hp

theorem Rooted.past (o : Orderly supply s) (h : Rooted s f realm) : Past supply s f := by
  obtain ⟨e, he, -⟩ := h
  exact o.stored f e he

theorem Rooted.congr (h : Rooted s f realm) (same : s'.components.get? f = s.components.get? f) :
    Rooted s' f realm := by
  obtain ⟨e, he, hr, hp⟩ := h
  exact ⟨e, same.trans he, hr, hp⟩

/-- What one action does to the mappers of the federation `f`: it changes the one of `id`. -/
structure Step (supply : Supply) (f realm : String) (a : Action) (id : String) (s s' : Server) :
    Prop where
  frame : Frame s s'
  orderly : Orderly supply s'
  federation : s'.components.get? f = s.components.get? f
  named : a.id? = some id ∧ Past supply s id ∨ a.id? = none ∧ ¬Past supply s id
  past : Past supply s' id
  does : a.Does f id (s.mapper? f realm id) (s'.mapper? f realm id)
  others : ∀ k, k ≠ id → s'.mapper? f realm k = s.mapper? f realm k
  kept : ∀ k, k ≠ id → Past supply s k → s'.components.get? k = s.components.get? k ∨
    s'.components.get? k = none ∧ ¬s.Below f k
  entries : ∀ k e, s'.components.get? k = some e → s.components.get? k = some e ∨
    (∃ provider mappers m, s.defaults.get? provider = some mappers ∧ m ∈ mappers ∧
      e.component.providerType = m.providerType) ∨
    ∃ c, (a = .create c ∨ a = .update c) ∧ e.component.providerType = c.providerType
  links : ∀ p, s'.ChildOf id p → p = f
  linked : s.Below f id → ∀ p, s.ChildOf id p → s'.ChildOf id p

theorem create_step (o : Orderly supply s) (rooted : Rooted s f realm)
    (apt : (Action.create c).Apt supply s f realm) :
    ∃ id reply s', s.create supply c realm = (.ok reply, s') ∧
      Step supply f realm (.create c) id s s' := by
  obtain ⟨hp, given⟩ := apt
  obtain ⟨id, x, s', hs', created⟩ := create_effect o (fun i hi => (given i hi).2.2) realm
  have named : c.id = some id ∧ Past supply s id ∨ c.id = none ∧ ¬Past supply s id := by
    have hid := created.id_eq
    cases hc : c.id with
    | some i =>
      rw [hc, Option.getD_some] at hid
      exact .inl ⟨congrArg some hid.symm, hid ▸ (given i hc).2.2⟩
    | none =>
      rw [hc, Option.getD_none] at hid
      exact .inr ⟨rfl, fun h => h _ (Nat.le_refl _) hid.symm⟩
  have other : id ≠ f := by
    rcases named with ⟨hc, -⟩ | ⟨-, new⟩
    · exact (given id hc).1
    · exact fun same => new (same ▸ rooted.past o)
  have new : s.components.get? id = none := by
    rcases named with ⟨hc, -⟩ | ⟨-, new⟩
    · exact (given id hc).2.1
    · exact o.get?_of_not_past new
  have parent : c.parentId.getD realm = f := by rw [hp, Option.getD_some]
  obtain ⟨e, he, hr, hx⟩ := created.stored
  obtain ⟨y, stamped, hy⟩ := created.form
  rw [parent] at hy
  refine ⟨id, _, s', hs', created.frame, created.orderly o (parent ▸ rooted.past o),
    created.kept f other.symm (rooted.past o), named, created.past, ⟨?_, y, stamped, ?_⟩,
    fun k hk => ?_, fun k hk past => .inl (created.kept k hk past), fun k e' he' => ?_,
    fun p hp => ?_, fun _ p hp => ?_⟩
  · simp [mapper?, stored?, new]
  · rw [← hy]
    exact mapper?_eq_some_iff.mpr ⟨e, he, hr, hx, by rw [hy]⟩
  · by_cases past : Past supply s k
    · exact mapper?_congr (created.kept k hk past)
    · have before := o.get?_of_not_past past
      rw [mapper?_of_unstored before]
      refine Option.eq_none_iff_forall_ne_some.mpr fun m hm => ?_
      obtain ⟨e', he', -, rfl, hpar⟩ := mapper?_eq_some_iff.mp hm
      rcases created.added k e' hk he' with h | ⟨-, -, -, -, -, m, -, -, hm'⟩
      · simp [before] at h
      · rw [hm'] at hpar
        exact other (Option.some.inj hpar)
  · by_cases hk : k = id
    · rw [hk, he] at he'
      cases he'
      refine .inr (.inr ⟨c, .inl rfl, ?_⟩)
      rw [hx, hy, stamped.rest]
      rfl
    · rcases created.added k e' hk he' with h | ⟨-, -, -, provider, mappers, m, hd, hm, hc⟩
      · exact .inl h
      · exact .inr (.inl ⟨provider, mappers, m, hd, hm, by rw [hc]⟩)
  · obtain ⟨e', he', hp⟩ := hp
    cases he.symm.trans he'
    rw [hx, hy] at hp
    exact (Option.some.inj hp).symm
  · obtain ⟨e', he', -⟩ := hp
    cases new.symm.trans he'

theorem update_step (o : Orderly supply s) (rooted : Rooted s f realm)
    (apt : (Action.update c).Apt supply s f realm) :
    ∃ id s', s.update supply c realm = (.ok (), s') ∧
      Step supply f realm (.update c) id s s' := by
  obtain ⟨hparent, id, hid, there⟩ := apt
  have other := rooted.ne_of_mapper there
  obtain ⟨p, hm⟩ := Option.isSome_iff_exists.mp there
  obtain ⟨e, he, hr, rfl, hp⟩ := mapper?_eq_some_iff.mp hm
  obtain ⟨x, s', hs', updated⟩ := update_effect supply o hid he hr
  obtain ⟨y, stamped, hx⟩ := updated.form
  have parent : c.parentId.or e.component.parentId = some f := by
    rcases hparent with h | h <;> simp [h, hp]
  rw [parent] at hx
  have past : Past supply s id := o.stored id e he
  refine ⟨id, s', hs', updated.frame, ?_, ?_, .inl ⟨hid, past⟩, past.mono updated.frame,
    ⟨_, y, hm, stamped, ?_⟩, fun k hk => ?_, fun k hk _ => .inl ?_, fun k e' he' => ?_,
    fun p hp => ?_, fun _ p hp => ?_⟩
  · refine updated.orderly o hid he fun parent hc => ?_
    rcases hparent with h | h
    · simp [h] at hc
    · cases h.symm.trans hc
      exact rooted.past o
  · rw [updated.get?, if_neg other.symm]
  · rw [← hx]
    refine mapper?_eq_some_iff.mpr ⟨_, updated.get?.trans (if_pos rfl), hr, rfl, ?_⟩
    rw [hx]
  · exact mapper?_congr (by rw [updated.get?, if_neg hk])
  · rw [updated.get?, if_neg hk]
  · rw [updated.get?] at he'
    split at he'
    · cases he'
      refine .inr (.inr ⟨c, .inr rfl, ?_⟩)
      rw [hx, stamped.rest]
      rfl
    · exact .inl he'
  · obtain ⟨e', he', hp⟩ := hp
    rw [updated.get?, if_pos rfl] at he'
    cases he'
    rw [hx] at hp
    exact (Option.some.inj hp).symm
  · obtain ⟨e', he', hp'⟩ := hp
    cases he.symm.trans he'
    cases hp.symm.trans hp'
    exact ⟨_, updated.get?.trans (if_pos rfl), by rw [hx]⟩

theorem delete_step (o : Orderly supply s) (rooted : Rooted s f realm)
    (there : (s.mapper? f realm id).isSome) :
    ∃ s', s.delete id realm = (.ok (), s') ∧
      (s.Below f id ∧ s'.components.get? f = none ∨
        ¬s.Below f id ∧ Step supply f realm (.delete id) id s s') := by
  have other := rooted.ne_of_mapper there
  obtain ⟨p, hm⟩ := Option.isSome_iff_exists.mp there
  obtain ⟨e, he, hr, rfl, hp⟩ := mapper?_eq_some_iff.mp hm
  obtain ⟨s', hs', deleted⟩ := delete_effect o he hr
  refine ⟨s', hs', ?_⟩
  by_cases below : s.Below f id
  · exact .inl ⟨below, deleted.below f below⟩
  refine .inr ⟨below, deleted.frame, deleted.orderly o, deleted.kept f other.symm below,
    .inl ⟨rfl, o.stored id e he⟩, (o.stored id e he).mono deleted.frame, ?_, fun k hk => ?_,
    fun k hk _ => ?_, fun k e' he' => .inl (deleted.get?_of_some he'), fun p hp => ?_,
    fun h => absurd h below⟩
  · simp [Action.Does, mapper?, stored?, deleted.gone]
  · by_cases hb : s.Below k id
    · -- A mapper below the deleted one would have the federation between them.
      have after : s'.mapper? f realm k = none := by simp [mapper?, stored?, deleted.below k hb]
      rw [after]
      refine (Option.eq_none_iff_forall_ne_some.mpr fun m hm => ?_).symm
      obtain ⟨e', he', -, rfl, hp'⟩ := mapper?_eq_some_iff.mp hm
      rcases Relation.TransGen.head'_iff.mp hb with ⟨p, ⟨e'', he'', hp''⟩, rest⟩
      cases he'.symm.trans he''
      cases hp'.symm.trans hp''
      rcases Relation.reflTransGen_iff_eq_or_transGen.mp rest with same | chain
      · exact other same
      · exact below chain
    · exact mapper?_congr (deleted.kept k hk hb)
  · by_cases hb : s.Below k id
    · exact .inr ⟨deleted.below k hb, fun hf => below (hf.trans hb)⟩
    · exact .inl (deleted.kept k hk hb)
  · obtain ⟨e', he', -⟩ := hp
    cases deleted.gone.symm.trans he'

/-! ### Plans -/

theorem run_execute_cons {σ : Type} {service : Service σ} (a : Action) (plan : List Action)
    (s : σ) :
    (execute realm (a :: plan)).run service s =
      match service (a.call realm) s with
      | (.ok _, s') => (execute realm plan).run service s'
      | (.error e, s') => (.error e, s') := by
  simp only [execute, bind_eq, Action.execute, ask_bind, done_bind, run_ask]
  rcases service (a.call realm) s with ⟨_ | _, _⟩ <;> rfl

/-- What an action still can do after another one has changed the mapper of `id`. -/
theorem Step.apt {a b : Action} (step : Step supply f realm a id s s')
    (other : ∀ i, b.id? = some i → i ≠ id) (apt : b.Apt supply s f realm) :
    b.Apt supply s' f realm := by
  cases b with
  | create c =>
    obtain ⟨hp, given⟩ := apt
    refine ⟨hp, fun i hi => ?_⟩
    obtain ⟨hne, none, past⟩ := given i hi
    have absent : s'.components.get? i = Option.none := by
      rcases step.kept i (other i hi) past with same | ⟨gone, -⟩
      · exact same.trans none
      · exact gone
    exact ⟨hne, absent, past.mono step.frame⟩
  | update c =>
    obtain ⟨hp, i, hi, there⟩ := apt
    exact ⟨hp, i, hi, by rwa [step.others i (other i hi)]⟩
  | delete i =>
    have there : (s.mapper? f realm i).isSome := apt
    change (s'.mapper? f realm i).isSome
    rwa [step.others i (other i rfl)]

/-- What the federation lies below, it lies below after a step. -/
theorem Step.below {a : Action} (step : Step supply f realm a id s s') (o : Orderly supply s)
    (h : s.Below f k) : s'.Below f k := by
  induction h with
  | single link =>
    obtain ⟨e, he, hp⟩ := link
    exact .single ⟨e, step.federation.trans he, hp⟩
  | @tail b c chain link ih =>
    by_cases hb : b = id
    · subst hb
      exact .tail ih (step.linked chain c link)
    · have past : Past supply s b := by
        obtain ⟨x, -, e, he, hp⟩ := Relation.TransGen.tail'_iff.mp chain
        exact o.parents x e b he hp
      obtain ⟨e, he, hp⟩ := link
      rcases step.kept b hb past with same | ⟨-, none⟩
      · exact .tail ih ⟨e, same.trans he, hp⟩
      · exact absurd chain none

/-- After a step the federation lies below nothing more than itself and the changed mapper. -/
theorem Step.of_below {a : Action} (step : Step supply f realm a id s s') (o : Orderly supply s)
    (h : s'.Below f k) : k = f ∨ k = id ∨ s.Below f k := by
  induction h with
  | single link =>
    obtain ⟨e, he, hp⟩ := link
    exact .inr (.inr (.single ⟨e, step.federation.symm.trans he, hp⟩))
  | @tail b c chain link ih =>
    by_cases hb : b = id
    · subst hb
      exact .inl (step.links c link)
    · obtain ⟨e, he, hp⟩ := link
      rcases ih with rfl | same | below
      · exact .inr (.inr (.single ⟨e, step.federation.symm.trans he, hp⟩))
      · exact absurd same hb
      · have past : Past supply s b := by
          obtain ⟨x, -, e, he, hp⟩ := Relation.TransGen.tail'_iff.mp below
          exact o.parents x e b he hp
        rcases step.kept b hb past with same | ⟨gone, -⟩
        · exact .inr (.inr (.tail below ⟨e, same.symm.trans he, hp⟩))
        · cases gone.symm.trans he

/-- The ids that apt actions give are not given out any more. -/
theorem Orderly.past_of_apt (o : Orderly supply s) {a : Action} (apt : a.Apt supply s f realm)
    {i : String} (hi : a.id? = some i) : Past supply s i := by
  have mapper : (s.mapper? f realm i).isSome → Past supply s i := by
    intro there
    obtain ⟨m, hm⟩ := Option.isSome_iff_exists.mp there
    exact o.past_of_mapper? hm
  cases a with
  | create c => exact (apt.2 i hi).2.2
  | update c =>
    obtain ⟨-, i', hi', there⟩ := apt
    cases hi'.symm.trans hi
    exact mapper there
  | delete i' =>
    cases hi
    exact mapper apt

/-- What a plan does to the mappers of the federation `f`: its actions change those of `ids`, each
another one. -/
structure Carried (supply : Supply) (f realm : String) (plan : List Action) (ids : List String)
    (s s' : Server) : Prop where
  frame : Frame s s'
  orderly : Orderly supply s'
  federation : s'.components.get? f = s.components.get? f
  nodup : ids.Nodup
  does : List.Forall₂ (fun a id =>
    (a.id? = some id ∧ Past supply s id ∨ a.id? = none ∧ ¬Past supply s id) ∧
      a.Does f id (s.mapper? f realm id) (s'.mapper? f realm id)) plan ids
  past : ∀ id ∈ ids, Past supply s' id
  others : ∀ k, k ∉ ids → s'.mapper? f realm k = s.mapper? f realm k

theorem Carried.nil (o : Orderly supply s) : Carried supply f realm [] [] s s :=
  ⟨Frame.refl s, o, rfl, .nil, .nil, fun _ h => absurd h List.not_mem_nil, fun _ _ => rfl⟩

theorem Carried.cons {a : Action} {plan : List Action} {ids : List String}
    (step : Step supply f realm a id s s') (rest : Carried supply f realm plan ids s' t)
    (other : ∀ b ∈ plan, ∀ i, b.id? = some i → i ≠ id ∧ Past supply s i) :
    Carried supply f realm (a :: plan) (id :: ids) s t := by
  obtain ⟨length, does⟩ := List.forall₂_iff_zip.mp rest.does
  have apart : ∀ b i, (b, i) ∈ plan.zip ids → (b.id? = some i ∧ Past supply s i ∨
      b.id? = none ∧ ¬Past supply s i) ∧ i ≠ id := by
    intro b i hbi
    rcases (does hbi).1 with ⟨given, -⟩ | ⟨none, new⟩
    · obtain ⟨ne, past⟩ := other b (List.of_mem_zip hbi).1 i given
      exact ⟨.inl ⟨given, past⟩, ne⟩
    · refine ⟨.inr ⟨none, fun past => new (past.mono step.frame)⟩, ?_⟩
      rintro rfl
      exact new step.past
  have fresh : id ∉ ids := by
    intro hid
    obtain ⟨n, hn, rfl⟩ := List.mem_iff_getElem.mp hid
    have hn' : n < plan.length := length ▸ hn
    refine (apart plan[n] ids[n] ?_).2 rfl
    exact List.mem_iff_getElem.mpr ⟨n, by rw [List.length_zip]; omega, List.getElem_zip⟩
  refine ⟨step.frame.trans rest.frame, rest.orderly, rest.federation.trans step.federation,
    List.nodup_cons.mpr ⟨fresh, rest.nodup⟩, .cons ⟨step.named, ?_⟩ ?_, ?_, fun k hk => ?_⟩
  · rw [rest.others id fresh]
    exact step.does
  · refine List.forall₂_iff_zip.mpr ⟨length, fun {b i} hbi => ⟨(apart b i hbi).1, ?_⟩⟩
    rw [← step.others i (apart b i hbi).2]
    exact (does hbi).2
  · exact List.forall_mem_cons.mpr ⟨step.past.mono rest.frame, rest.past⟩
  · obtain ⟨hk, hks⟩ := List.ne_and_not_mem_of_not_mem_cons hk
    rw [rest.others k hks, step.others k hk]

/-- An apt action succeeds; it changes one mapper unless it deletes the federation with it. -/
theorem apt_step (o : Orderly supply s) (rooted : Rooted s f realm) {a : Action}
    (apt : a.Apt supply s f realm) :
    ∃ reply s', answer supply (a.call realm) s = (.ok reply, s') ∧
      ((∃ i, a = .delete i ∧ s.Below f i ∧ s'.components.get? f = none) ∨
        (∀ i, a = .delete i → ¬s.Below f i) ∧ ∃ id, Step supply f realm a id s s') := by
  cases a with
  | create c =>
    obtain ⟨id, reply, s', hs', step⟩ := create_step o rooted apt
    exact ⟨reply, s', hs', .inr ⟨fun _ h => (nomatch h), id, step⟩⟩
  | update c =>
    obtain ⟨id, s', hs', step⟩ := update_step o rooted apt
    exact ⟨(), s', hs', .inr ⟨fun _ h => (nomatch h), id, step⟩⟩
  | delete i =>
    obtain ⟨s', hs', h⟩ := delete_step o rooted apt
    refine ⟨(), s', hs', h.imp (fun h => ⟨i, rfl, h⟩) fun h => ⟨fun j hj => ?_, i, h.2⟩⟩
    cases hj
    exact h.1

/-- A federation that is gone is not brought back by an action on its mappers. -/
theorem absent_step (o : Orderly supply s) (past : Past supply s f)
    (gone : s.components.get? f = none) {a : Action}
    (parent : ∀ c, a = .create c ∨ a = .update c → c.parentId = none ∨ c.parentId = some f)
    (created : ∀ c, a = .create c → c.parentId = some f ∧
      ∀ i, c.id = some i → i ≠ f ∧ Past supply s i)
    {reply : (a.call realm).Reply} (h : answer supply (a.call realm) s = (.ok reply, s')) :
    Orderly supply s' ∧ Frame s s' ∧ s'.components.get? f = none := by
  cases a with
  | create c =>
    obtain ⟨hp, given⟩ := created c rfl
    obtain ⟨id, x, t, ht, effect⟩ := create_effect o (fun i hi => (given i hi).2) realm
    cases ht.symm.trans h
    have other : f ≠ id := by
      rintro rfl
      cases hc : c.id with
      | some i =>
        have hid := effect.id_eq
        rw [hc, Option.getD_some] at hid
        exact (given i hc).1 hid.symm
      | none =>
        have hid := effect.id_eq
        rw [hc, Option.getD_none] at hid
        exact past _ (Nat.le_refl _) hid.symm
    refine ⟨effect.orderly o ?_, effect.frame, (effect.kept f other past).trans gone⟩
    rwa [hp, Option.getD_some]
  | update c =>
    obtain ⟨id, e, hid, he, hr⟩ := update_ok h
    obtain ⟨x, t, ht, effect⟩ := update_effect supply o hid he hr
    cases ht.symm.trans h
    have other : f ≠ id := by
      rintro rfl
      cases gone.symm.trans he
    refine ⟨effect.orderly o hid he fun p hp => ?_, effect.frame, ?_⟩
    · rcases parent c (.inr rfl) with h | h
      · simp [h] at hp
      · cases h.symm.trans hp
        exact past
    · rw [effect.get?, if_neg other, gone]
  | delete i =>
    obtain ⟨e, he, hr⟩ := delete_ok h
    obtain ⟨t, ht, effect⟩ := delete_effect o he hr
    cases ht.symm.trans h
    refine ⟨effect.orderly o, effect.frame, ?_⟩
    cases hf : s'.components.get? f with
    | none => rfl
    | some e => exact absurd (effect.get?_of_some hf) (by simp [gone])

theorem execute_absent {plan : List Action} (o : Orderly supply s) (past : Past supply s f)
    (gone : s.components.get? f = none)
    (parent : ∀ a ∈ plan, ∀ c, a = .create c ∨ a = .update c →
      c.parentId = none ∨ c.parentId = some f)
    (created : ∀ a ∈ plan, ∀ c, a = .create c → c.parentId = some f ∧
      ∀ i, c.id = some i → i ≠ f ∧ Past supply s i)
    (run : (execute realm plan).run (answer supply) s = (.ok (), s')) :
    s'.components.get? f = none := by
  induction plan generalizing s with
  | nil =>
    cases run
    exact gone
  | cons a plan ih =>
    rw [run_execute_cons] at run
    rcases h : answer supply (a.call realm) s with ⟨e | reply, t⟩ <;> simp only [h] at run
    · cases run
    · obtain ⟨o', frame, gone'⟩ := absent_step o past gone (parent a List.mem_cons_self)
        (created a List.mem_cons_self) h
      refine ih o' (past.mono frame) gone' (fun b hb => parent b (List.mem_cons_of_mem _ hb))
        (fun b hb c hc => ?_) run
      obtain ⟨hp, given⟩ := created b (List.mem_cons_of_mem _ hb) c hc
      exact ⟨hp, fun i hi => ⟨(given i hi).1, (given i hi).2.mono frame⟩⟩

/-- The ids that the other actions of a plan give are apart from the one that a step changes. -/
theorem Step.apart {a : Action} {plan : List Action} (step : Step supply f realm a id s s')
    (o : Orderly supply s) (apt : ∀ b ∈ plan, b.Apt supply s f realm)
    (distinct : ((a :: plan).filterMap Action.id?).Nodup) :
    ∀ b ∈ plan, ∀ i, b.id? = some i → i ≠ id ∧ Past supply s i := by
  intro b hb i hi
  have past := o.past_of_apt (apt b hb) hi
  refine ⟨?_, past⟩
  rintro rfl
  rcases step.named with ⟨given, -⟩ | ⟨-, new⟩
  · rw [List.filterMap_cons_some given, List.nodup_cons] at distinct
    exact distinct.1 (List.mem_filterMap.mpr ⟨b, hb, hi⟩)
  · exact new past

/-- A plan that is carried out while the federation is there. -/
inductive Steps (supply : Supply) (f realm : String) : List Action → Server → Server → Prop
  | nil {s : Server} : Steps supply f realm [] s s
  | cons {a : Action} {plan : List Action} {id : String} {reply : (a.call realm).Reply}
      {s s' t : Server} (answered : answer supply (a.call realm) s = (.ok reply, s'))
      (step : Step supply f realm a id s s')
      (apart : ∀ b ∈ plan, ∀ i, b.id? = some i → i ≠ id ∧ Past supply s i)
      (survives : ∀ i, a = .delete i → ¬s.Below f i) (rest : Steps supply f realm plan s' t) :
      Steps supply f realm (a :: plan) s t

theorem Steps.carried {plan : List Action} (steps : Steps supply f realm plan s t)
    (o : Orderly supply s) : ∃ ids, Carried supply f realm plan ids s t := by
  induction steps with
  | nil => exact ⟨[], .nil o⟩
  | cons _ step apart _ _ ih =>
    obtain ⟨ids, carried⟩ := ih step.orderly
    exact ⟨_, carried.cons step apart⟩

theorem Steps.run {plan : List Action} (steps : Steps supply f realm plan s t) :
    (execute realm plan).run (answer supply) s = (.ok (), t) := by
  induction steps with
  | nil => rfl
  | cons answered _ _ _ _ ih =>
    rw [run_execute_cons, answered]
    exact ih

/-- A plan is carried out in parts. -/
theorem Steps.of_append {before after : List Action}
    (steps : Steps supply f realm (before ++ after) s t) :
    ∃ v, Steps supply f realm before s v ∧ Steps supply f realm after v t := by
  induction before generalizing s with
  | nil => exact ⟨s, .nil, steps⟩
  | cons a before ih =>
    cases steps with
    | cons answered step apart survives rest =>
      obtain ⟨v, first, second⟩ := ih rest
      have apart' := fun b hb => apart b (List.mem_append_left _ hb)
      exact ⟨v, .cons answered step apart' survives first, second⟩

/-- The federation is not below what a plan deletes. -/
theorem Steps.not_below {plan : List Action} (steps : Steps supply f realm plan s t)
    (o : Orderly supply s) : ∀ i, .delete i ∈ plan → ¬s.Below f i := by
  induction steps with
  | nil => simp
  | cons _ step _ survives _ ih =>
    intro i hi
    rcases List.mem_cons.mp hi with same | hi
    · exact survives i same.symm
    · exact fun below => ih step.orderly i hi (step.below o below)

/-- Every federation was there before. -/
def Quiet (s s' : Server) : Prop :=
  ∀ k e, s'.components.get? k = some e → e.component.providerType = some federationType →
    s.components.get? k = some e

/-- A plan for mappers brings no federation about. -/
theorem Steps.quiet {plan : List Action} (steps : Steps supply f realm plan s t)
    (defaults : ∀ provider mappers, s.defaults.get? provider = some mappers → ∀ m ∈ mappers,
      m.providerType ≠ some federationType)
    (types : ∀ a ∈ plan, ∀ c, a = .create c ∨ a = .update c →
      c.providerType ≠ some federationType) : Quiet s t := by
  induction steps with
  | nil => exact fun _ _ he _ => he
  | cons _ step _ _ _ ih =>
    intro k e he type
    have later := ih (step.frame.defaults ▸ defaults) fun b hb => types b (List.mem_cons_of_mem _ hb)
    rcases step.entries k e (later k e he type) with old | ⟨provider, mappers, m, hd, hm, same⟩ |
      ⟨c, made, same⟩
    · exact old
    · exact absurd (same.symm.trans type) (defaults provider mappers hd m hm)
    · exact absurd (same.symm.trans type) (types _ List.mem_cons_self c made)

/-- A plan of apt actions on different mappers that leaves the federation there is carried out. -/
theorem execute_effect {plan : List Action} (o : Orderly supply s) (rooted : Rooted s f realm)
    (apt : ∀ a ∈ plan, a.Apt supply s f realm) (distinct : (plan.filterMap Action.id?).Nodup)
    (run : (execute realm plan).run (answer supply) s = (.ok (), s'))
    (there : s'.components.get? f ≠ none) : Steps supply f realm plan s s' := by
  induction plan generalizing s with
  | nil =>
    cases run
    exact .nil
  | cons a plan ih =>
    rw [run_execute_cons] at run
    obtain ⟨apta, aptplan⟩ := List.forall_mem_cons.mp apt
    obtain ⟨reply, t, ht, ⟨i, rfl, below, gone⟩ | ⟨survives, id, step⟩⟩ := apt_step o rooted apta
    · -- The federation goes with the mapper, and nothing brings it back.
      simp only [ht] at run
      obtain ⟨m, hm⟩ := Option.isSome_iff_exists.mp (show (s.mapper? f realm i).isSome from apta)
      obtain ⟨e, he, hr, -⟩ := mapper?_eq_some_iff.mp hm
      obtain ⟨t', ht', effect⟩ := delete_effect o he hr
      cases ht'.symm.trans ht
      refine absurd (execute_absent (effect.orderly o) ((rooted.past o).mono effect.frame) gone
        (fun a ha c hc => ?_) (fun a ha c hc => ?_) run) there
      · rcases hc with rfl | rfl
        · exact .inr (aptplan _ ha).1
        · exact (aptplan _ ha).1
      · subst hc
        obtain ⟨hp, given⟩ := aptplan _ ha
        exact ⟨hp, fun i hi => ⟨(given i hi).1, (given i hi).2.2.mono effect.frame⟩⟩
    · simp only [ht] at run
      have apart := step.apart o aptplan distinct
      refine .cons ht step apart survives (ih step.orderly (rooted.congr step.federation)
        (fun b hb => step.apt (fun i hi => (apart b hb i hi).1) (aptplan b hb)) ?_ run)
      exact distinct.sublist ((List.sublist_cons_self a plan).filterMap _)

/-- A plan of apt actions on different mappers is carried out if the federation is not below what it
deletes. -/
theorem execute_safe {plan : List Action} (o : Orderly supply s) (rooted : Rooted s f realm)
    (apt : ∀ a ∈ plan, a.Apt supply s f realm) (distinct : (plan.filterMap Action.id?).Nodup)
    (safe : ∀ i, .delete i ∈ plan → ¬s.Below f i) : ∃ s', Steps supply f realm plan s s' := by
  induction plan generalizing s with
  | nil => exact ⟨s, .nil⟩
  | cons a plan ih =>
    obtain ⟨apta, aptplan⟩ := List.forall_mem_cons.mp apt
    obtain ⟨reply, t, ht, ⟨i, rfl, below, -⟩ | ⟨survives, id, step⟩⟩ := apt_step o rooted apta
    · exact absurd below (safe i List.mem_cons_self)
    · have apart := step.apart o aptplan distinct
      obtain ⟨s', steps⟩ := ih step.orderly (rooted.congr step.federation)
        (fun b hb => step.apt (fun i hi => (apart b hb i hi).1) (aptplan b hb))
        (distinct.sublist ((List.sublist_cons_self a plan).filterMap _)) fun i hi below => by
          rcases step.of_below o below with rfl | rfl | below
          · exact rooted.ne_of_mapper (show (s.mapper? i realm i).isSome from aptplan _ hi) rfl
          · exact (apart _ hi i rfl).1 rfl
          · exact safe i (List.mem_cons_of_mem _ hi) below
      exact ⟨s', .cons ht step apart survives steps⟩

end Server

end UserFederation
