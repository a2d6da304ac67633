import UserFederation.Proofs.Convergence

/-! What a creation adds. It stores the component and its default mappers one after another, each
under its own id or a new one (`givenIds`), and nothing keeps it from an id that is in use. So it
only adds to what is stored just if these ids are all different and none is in use in any realm
(`create_adds_iff`). -/

namespace UserFederation

namespace Server

variable {supply : Supply} {s s' : Server} {realm parent id : String} {c reply : Component}
  {cs : List Component}

/-! ### Storing one after another -/

/-- Stores components one after another. -/
def putAll (supply : Supply) (s : Server) (realm : String) (cs : List Component) : Server :=
  cs.foldl (fun s c => (s.put supply realm c).2) s

/-- A new parent does not change the ids. -/
theorem idsOf_below (supply : Supply) (n : Nat) (cs : List Component) (parent : String) :
    idsOf supply n (cs.map fun m => { m with parentId := some parent }) = idsOf supply n cs := by
  induction cs generalizing n with
  | nil => rfl
  | cons c cs ih => rw [List.map_cons, idsOf, idsOf, ih]

theorem provision_eq_putAll (mappers : List Component) :
    s.provision supply realm parent mappers =
      s.putAll supply realm (mappers.map fun m => { m with parentId := some parent }) := by
  rw [putAll, List.foldl_map]
  rfl

theorem putAll_keeps (h : id ∉ idsOf supply s.idsIssued cs) :
    (s.putAll supply realm cs).components.get? id = s.components.get? id := by
  induction cs generalizing s with
  | nil => rfl
  | cons c cs ih =>
    rw [idsOf, List.mem_cons, not_or] at h
    exact (ih h.2).trans ((get?_put supply s realm c).trans (if_neg h.1))

theorem put_size (supply : Supply) (s : Server) (realm : String) (c : Component) :
    (s.put supply realm c).2.components.size = s.components.size +
      if s.components.get? (c.id.getD (supply.id s.idsIssued)) = none then 1 else 0 := by
  cases there : s.components.get? (c.id.getD (supply.id s.idsIssued)) with
  | none => rw [if_pos rfl]; exact SortedMap.size_insert_of_none there _
  | some e => rw [if_neg nofun]; exact SortedMap.size_insert_of_some there _

/-- Each component makes the store grow by one entry at most, and all do just if their ids are
different and not in use. -/
theorem putAll_size : (s.putAll supply realm cs).components.size ≤ s.components.size + cs.length ∧
    ((s.putAll supply realm cs).components.size = s.components.size + cs.length ↔
      (idsOf supply s.idsIssued cs).Nodup ∧
        ∀ id ∈ idsOf supply s.idsIssued cs, s.components.get? id = none) := by
  induction cs generalizing s with
  | nil => simp [putAll, idsOf]
  | cons c cs ih =>
    obtain ⟨most, all⟩ := ih (s := (s.put supply realm c).2)
    have size := put_size supply s realm c
    -- The ids of the rest have to be free once the first component has taken its own.
    have free : ∀ id, (s.put supply realm c).2.components.get? id = none ↔
        id ≠ c.id.getD (supply.id s.idsIssued) ∧ s.components.get? id = none := by
      intro id
      rw [get?_put]
      by_cases same : id = (s.put supply realm c).1
      · rw [if_pos same]
        exact ⟨nofun, fun h => absurd same h.1⟩
      · rw [if_neg same]
        exact ⟨fun h => ⟨same, h⟩, And.right⟩
    have ids : idsOf supply s.idsIssued (c :: cs) = c.id.getD (supply.id s.idsIssued) ::
        idsOf supply (s.put supply realm c).2.idsIssued cs := rfl
    have rest : s.putAll supply realm (c :: cs) = (s.put supply realm c).2.putAll supply realm cs :=
      rfl
    simp only [free] at all
    rw [ids, rest, List.length_cons, List.nodup_cons, List.forall_mem_cons]
    by_cases there : s.components.get? (c.id.getD (supply.id s.idsIssued)) = none
    · rw [if_pos there] at size
      rw [size] at most all
      refine ⟨by omega, ?_⟩
      rw [← Nat.add_assoc, Nat.add_right_comm, all]
      grind
    · -- A component is replaced, and the rest cannot make up for it.
      rw [if_neg there] at size
      exact ⟨by omega, fun h => by omega, fun h => absurd h.2.1 there⟩

/-! ### Creating -/

/-- The ids that a creation gives, to the component and to its default mappers. -/
def givenIds (supply : Supply) (s : Server) (c : Component) : List String :=
  idsOf supply s.idsIssued (c :: s.provided c)

/-- A creation that succeeds stores a component and its default mappers one after another. -/
theorem create_eq_putAll (h : s.create supply c realm = (.ok reply, s')) :
    ∃ (t : Server) (x : Component) (parent : String), s'.components = (t.putAll supply realm
        (x :: (s.provided c).map fun m => { m with parentId := some parent })).components ∧
      t.components = s.components ∧ t.idsIssued = s.idsIssued ∧ x.id = c.id := by
  obtain ⟨e, -, -, rfl⟩ := create_ok h
  obtain ⟨n, x, stamped, whole⟩ := establish_eq supply s c realm
  have same : x.id = c.id := by rw [stamped.rest]; rfl
  refine ⟨{ s with timesIssued := n }, x, (put supply { s with timesIssued := n } realm x).1, ?_,
    rfl, rfl, same⟩
  rw [whole]
  change (provision _ _ _ _ _).components = _
  rw [provision_eq_putAll]
  rfl

/-- A creation that succeeds keeps what is stored under other ids than those that it gives, and adds
as many components as it stores, without replacing any, just if the ids that it gives are different
and none of them is in use, in whatever realm. -/
theorem create_adds_iff (h : s.create supply c realm = (.ok reply, s')) :
    (∀ id, id ∉ s.givenIds supply c → s'.components.get? id = s.components.get? id) ∧
      ((∀ id e, s.components.get? id = some e → s'.components.get? id = some e) ∧
          s'.components.size = s.components.size + 1 + (s.provided c).length ↔
        (s.givenIds supply c).Nodup ∧
          ∀ id ∈ s.givenIds supply c, s.components.get? id = none) := by
  obtain ⟨t, x, parent, after, before, issued, same⟩ := create_eq_putAll h
  have ids : idsOf supply t.idsIssued
      (x :: (s.provided c).map fun m => { m with parentId := some parent }) =
        s.givenIds supply c := by
    rw [givenIds, idsOf, idsOf, idsOf_below, same, issued]
  have kept : ∀ id, id ∉ s.givenIds supply c →
      s'.components.get? id = s.components.get? id := by
    intro id free
    rw [after, putAll_keeps (ids ▸ free), before]
  refine ⟨kept, fun ⟨_, grows⟩ => ?_, fun free => ⟨fun id e he => ?_, ?_⟩⟩
  · have all := (@putAll_size supply t realm _).2.mp (by
      rw [← after, grows, before, List.length_cons, List.length_map]
      omega)
    rwa [ids, before] at all
  · have other : id ∉ s.givenIds supply c := fun given =>
      Option.some_ne_none e (he.symm.trans (free.2 id given))
    rw [kept id other, he]
  · have all := (@putAll_size supply t realm _).2.mpr (by rwa [ids, before])
    rw [after, all, before, List.length_cons, List.length_map]
    omega

namespace Sample

/-- A federation that comes with the default mappers of its provider. -/
def supplied : Component :=
  { id := some "people", providerId := some "ldap", providerType := some federationType }

/-- A component of another realm has the id that the federation `people` is to have. -/
def elsewhere : Server := withoutDefaults.apply tally (.seed "other" { id := some "people" })

theorem supplied_provided : (withLdapDefaults.provided supplied).length = 4 := by decide

theorem supplied_ids : withLdapDefaults.givenIds tally supplied =
    ["people", "~", "~~", "~~~", "~~~~"] := by decide

end Sample

open Server.Sample in
theorem create_adds_supplied : ∃ reply s',
    withLdapDefaults.create tally supplied "master" = (.ok reply, s') ∧
      (∀ id e, withLdapDefaults.components.get? id = some e → s'.components.get? id = some e) ∧
      s'.components.size = withLdapDefaults.components.size + 1 + 4 := by
  have created : ∃ reply s', withLdapDefaults.create tally supplied "master" = (.ok reply, s') :=
    ⟨_, _, rfl⟩
  obtain ⟨reply, s', created⟩ := created
  have adds := (create_adds_iff created).2
  rw [supplied_ids, supplied_provided] at adds
  exact ⟨reply, s', created, adds.mpr ⟨by decide, fun _ _ => rfl⟩⟩

open Server.Sample in
/-- A creation can take the place of a component of another realm. -/
theorem create_replaces_elsewhere : Reachable tally elsewhere ∧ ∃ e reply s',
    elsewhere.create tally people "master" = (.ok reply, s') ∧
      elsewhere.stored? "people" "other" = some e ∧ s'.stored? "people" "other" = none ∧
      s'.components.size = elsewhere.components.size := by
  refine ⟨.apply _ .withoutDefaults, _, _, _, rfl, rfl, ?_, ?_⟩
  · decide
  · decide

end Server

end UserFederation
