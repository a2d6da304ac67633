/-! Finite maps from strings, held as entries in strictly increasing order of their keys. Lookups
determine a map (`ext_get?`), and each operation has one lemma that says what it does to lookups. -/

namespace UserFederation

universe u v w

/-- A finite map from strings; keys are ordered by code point. -/
structure SortedMap (α : Type u) where
  /-- The entries, in strictly increasing order of keys. -/
  entries : List (String × α)
  sorted : entries.Pairwise fun a b => a.1 < b.1
  deriving DecidableEq

namespace SortedMap

variable {α : Type u} {β : Type v} {γ : Type w}

/-- Puts an entry in its place, replacing the entry of the same key. -/
def insertEntry (k : String) (x : α) : List (String × α) → List (String × α)
  | [] => [(k, x)]
  | (k', x') :: rest =>
    if k < k' then (k, x) :: (k', x') :: rest
    else if k = k' then (k, x) :: rest
    else (k', x') :: insertEntry k x rest

theorem mem_insertEntry {k : String} {x : α} {e : String × α} {l : List (String × α)}
    (h : e ∈ insertEntry k x l) : e = (k, x) ∨ e ∈ l := by
  induction l with
  | nil => simpa [insertEntry] using h
  | cons head rest ih =>
    obtain ⟨k', x'⟩ := head
    rw [insertEntry] at h
    split at h
    · simpa using h
    · split at h
      · rcases List.mem_cons.1 h with h | h
        · exact .inl h
        · exact .inr (List.mem_cons_of_mem _ h)
      · rcases List.mem_cons.1 h with h | h
        · exact .inr (h ▸ List.mem_cons_self)
        · exact (ih h).imp id (List.mem_cons_of_mem _)

theorem lt_of_not_lt_of_ne {a b : String} (h : ¬a < b) (hne : a ≠ b) : b < a := by
  rcases Classical.em (b < a) with hb | hb
  · exact hb
  · exact absurd (String.le_antisymm (String.not_lt.1 hb) (String.not_lt.1 h)) hne

theorem insertEntry_sorted (k : String) (x : α) {l : List (String × α)}
    (h : l.Pairwise fun a b => a.1 < b.1) :
    (insertEntry k x l).Pairwise fun a b => a.1 < b.1 := by
  induction l with
  | nil => simp [insertEntry]
  | cons head rest ih =>
    obtain ⟨k', x'⟩ := head
    rw [List.pairwise_cons] at h
    rw [insertEntry]
    split
    · rename_i hlt
      refine List.pairwise_cons.2 ⟨fun e he => ?_, List.pairwise_cons.2 h⟩
      rcases List.mem_cons.1 he with rfl | he
      · exact hlt
      · exact String.lt_trans hlt (h.1 e he)
    · split
      · rename_i heq
        subst heq
        exact List.pairwise_cons.2 h
      · rename_i hlt hne
        refine List.pairwise_cons.2 ⟨fun e he => ?_, ih h.2⟩
        rcases mem_insertEntry he with rfl | he
        · exact lt_of_not_lt_of_ne hlt hne
        · exact h.1 e he

/-- The map without entries. -/
def empty : SortedMap α := ⟨[], List.Pairwise.nil⟩

instance : Inhabited (SortedMap α) := ⟨empty⟩

/-- The value of a key. -/
def get? (m : SortedMap α) (k : String) : Option α := m.entries.lookup k

/-- Sets the value of a key. -/
def insert (m : SortedMap α) (k : String) (x : α) : SortedMap α :=
  ⟨insertEntry k x m.entries, insertEntry_sorted k x m.sorted⟩

/-- Drops a key. -/
def erase (m : SortedMap α) (k : String) : SortedMap α :=
  ⟨m.entries.filter fun e => e.1 != k, m.sorted.filter _⟩

/-- The map of a list of entries; of two entries of one key the later counts. -/
def ofList (l : List (String × α)) : SortedMap α :=
  l.foldl (fun m e => m.insert e.1 e.2) empty

/-- The entries of both maps; the second map wins where both have a key. -/
def overlay (m patch : SortedMap α) : SortedMap α :=
  patch.entries.foldl (fun m e => m.insert e.1 e.2) m

/-- Replaces every value by an optional one, dropping the keys that get none. -/
def filterMap (f : String → α → Option β) (m : SortedMap α) : SortedMap β :=
  ⟨m.entries.filterMap fun e => (f e.1 e.2).map fun y => (e.1, y), by
    refine List.Pairwise.filterMap _ ?_ m.sorted
    intro a b hab a' ha' b' hb'
    simp only [Option.map_eq_some_iff] at ha' hb'
    obtain ⟨_, _, rfl⟩ := ha'
    obtain ⟨_, _, rfl⟩ := hb'
    exact hab⟩

/-- Replaces every value. -/
def mapValues (f : α → β) (m : SortedMap α) : SortedMap β :=
  ⟨m.entries.map fun e => (e.1, f e.2), List.pairwise_map.2 m.sorted⟩

/-- The entries of the keys that satisfy a test. -/
def filter (p : String → α → Bool) (m : SortedMap α) : SortedMap α :=
  ⟨m.entries.filter fun e => p e.1 e.2, m.sorted.filter _⟩

/-- Whether a key has a value. -/
def contains (m : SortedMap α) (k : String) : Bool := (m.get? k).isSome

/-- The keys, in order. -/
def keys (m : SortedMap α) : List String := m.entries.map (·.1)

/-- The values, in order of their keys. -/
def values (m : SortedMap α) : List α := m.entries.map (·.2)

/-- The number of entries. -/
def size (m : SortedMap α) : Nat := m.entries.length

theorem lookup_eq_some_iff {l : List (String × α)} (h : l.Pairwise fun a b => a.1 < b.1)
    {k : String} {x : α} : l.lookup k = some x ↔ (k, x) ∈ l := by
  induction l with
  | nil => simp
  | cons head rest ih =>
    obtain ⟨k', x'⟩ := head
    rw [List.pairwise_cons] at h
    by_cases hk : k = k'
    · subst hk
      simp only [List.lookup_cons_self, Option.some.injEq, List.mem_cons, Prod.mk.injEq, true_and]
      refine ⟨fun e => .inl e.symm, fun e => e.elim Eq.symm fun hm => ?_⟩
      exact absurd (h.1 _ hm) (String.lt_irrefl _)
    · simp [List.lookup_cons, beq_false_of_ne hk, ih h.2, hk]

/-- A map holds exactly its entries. -/
theorem get?_eq_some_iff {m : SortedMap α} {k : String} {x : α} :
    m.get? k = some x ↔ (k, x) ∈ m.entries := lookup_eq_some_iff m.sorted

theorem lookup_insertEntry (k k' : String) (x : α) (l : List (String × α)) :
    (insertEntry k x l).lookup k' = if k' = k then some x else l.lookup k' := by
  induction l with
  | nil =>
    by_cases h : k' = k
    · simp [insertEntry, h]
    · simp [insertEntry, List.lookup_cons, beq_false_of_ne h, h]
  | cons head rest ih =>
    obtain ⟨k₁, x₁⟩ := head
    rw [insertEntry]
    by_cases h : k' = k
    · subst h
      split
      · simp
      · split
        · simp
        · rename_i hne
          simp [List.lookup_cons, beq_false_of_ne hne, ih]
    · simp only [if_neg h] at ih ⊢
      split
      · simp [List.lookup_cons, beq_false_of_ne h]
      · split
        · rename_i heq
          subst heq
          simp [List.lookup_cons, beq_false_of_ne h]
        · simp [List.lookup_cons, ih]

/-- Inserting sets the value of one key and keeps all others. -/
theorem get?_insert (m : SortedMap α) (k k' : String) (x : α) :
    (m.insert k x).get? k' = if k' = k then some x else m.get? k' :=
  lookup_insertEntry k k' x m.entries

@[simp] theorem get?_insert_self (m : SortedMap α) (k : String) (x : α) :
    (m.insert k x).get? k = some x := by simp [get?_insert]

theorem get?_insert_of_ne (m : SortedMap α) {k k' : String} (x : α) (h : k' ≠ k) :
    (m.insert k x).get? k' = m.get? k' := by simp [get?_insert, h]

theorem insertEntry_eq_map {l : List (String × α)} (h : l.Pairwise fun a b => a.1 < b.1)
    {k : String} (hk : k ∈ l.map (·.1)) (x : α) :
    insertEntry k x l = l.map fun e => if e.1 = k then (k, x) else e := by
  induction l with
  | nil => cases hk
  | cons head rest ih =>
    obtain ⟨k₁, x₁⟩ := head
    rw [List.pairwise_cons] at h
    rw [insertEntry, List.map_cons]
    by_cases same : k = k₁
    · subst same
      have others : rest.map (fun e => if e.1 = k then (k, x) else e) = rest :=
        (List.map_congr_left fun e he => if_neg (String.ne_of_lt (h.1 e he)).symm).trans
          (List.map_id' rest)
      simp [others]
    · have later : k ∈ rest.map (·.1) := (List.mem_cons.1 hk).resolve_left same
      obtain ⟨e, he, rfl⟩ := List.mem_map.1 later
      have after : ¬e.1 < k₁ := fun lt => String.lt_irrefl _ (String.lt_trans lt (h.1 e he))
      rw [if_neg after, if_neg same, if_neg fun eq => same eq.symm, ih h.2 later]

/-- Setting a key that is there replaces its entry in place. -/
theorem entries_insert_of_get? {m : SortedMap α} {k : String} {y : α} (h : m.get? k = some y)
    (x : α) : (m.insert k x).entries = m.entries.map fun e => if e.1 = k then (k, x) else e :=
  insertEntry_eq_map m.sorted (List.mem_map.2 ⟨_, get?_eq_some_iff.1 h, rfl⟩) x

theorem size_insert_of_some {m : SortedMap α} {k : String} {y : α} (h : m.get? k = some y)
    (x : α) : (m.insert k x).size = m.size := by
  rw [size, entries_insert_of_get? h, List.length_map, size]

theorem length_insertEntry {k : String} {l : List (String × α)} (h : l.lookup k = none) (x : α) :
    (insertEntry k x l).length = l.length + 1 := by
  induction l with
  | nil => rfl
  | cons e l ih =>
    have other : k ≠ e.1 := by
      rintro rfl
      simp at h
    rw [List.lookup_cons, beq_false_of_ne other] at h
    rw [insertEntry, if_neg other]
    split
    · rfl
    · rw [List.length_cons, ih h, List.length_cons]

theorem size_insert_of_none {m : SortedMap α} {k : String} (h : m.get? k = none) (x : α) :
    (m.insert k x).size = m.size + 1 :=
  length_insertEntry h x

@[simp] theorem get?_empty (k : String) : (empty : SortedMap α).get? k = none := rfl

/-- Erasing removes one key and keeps all others. -/
theorem get?_erase (m : SortedMap α) (k k' : String) :
    (m.erase k).get? k' = if k' = k then none else m.get? k' := by
  apply Option.ext
  intro x
  rw [get?_eq_some_iff]
  by_cases h : k' = k
  · simp [erase, h]
  · simp [erase, h, get?_eq_some_iff]

/-- Two maps with the same lookups are equal. -/
theorem ext_get? {m n : SortedMap α} (h : ∀ k, m.get? k = n.get? k) : m = n := by
  obtain ⟨l, hl⟩ := m
  obtain ⟨r, hr⟩ := n
  have key : l = r := by
    have hmem : ∀ e, e ∈ l ↔ e ∈ r := by
      intro e
      rw [← lookup_eq_some_iff hl (k := e.1) (x := e.2), ← lookup_eq_some_iff hr]
      exact ⟨fun e' => (h e.1).symm.trans e', fun e' => (h e.1).trans e'⟩
    clear h
    revert hr
    induction l generalizing r with
    | nil =>
      intro _
      cases r with
      | nil => rfl
      | cons head _ => exact absurd ((hmem head).2 List.mem_cons_self) (by simp)
    | cons a l ih =>
      intro hr
      cases r with
      | nil => exact absurd ((hmem a).1 List.mem_cons_self) (by simp)
      | cons b r =>
        rw [List.pairwise_cons] at hl hr
        have hab : a = b := by
          rcases List.mem_cons.1 ((hmem a).1 List.mem_cons_self) with h | h
          · exact h
          · rcases List.mem_cons.1 ((hmem b).2 List.mem_cons_self) with h' | h'
            · exact h'.symm
            · exact absurd (String.lt_trans (hr.1 _ h) (hl.1 _ h')) (String.lt_irrefl _)
        subst hab
        refine congrArg (a :: ·) (ih hl.2 r (fun e => ⟨fun he => ?_, fun he => ?_⟩) hr.2)
        · rcases List.mem_cons.1 ((hmem e).1 (List.mem_cons_of_mem _ he)) with h | h
          · exact absurd (h ▸ hl.1 _ he) (String.lt_irrefl _)
          · exact h
        · rcases List.mem_cons.1 ((hmem e).2 (List.mem_cons_of_mem _ he)) with h | h
          · exact absurd (h ▸ hr.1 _ he) (String.lt_irrefl _)
          · exact h
  subst key
  rfl

theorem erase_eq_self {m : SortedMap α} {k : String} (h : m.get? k = none) : m.erase k = m := by
  refine ext_get? fun k' => ?_
  rw [get?_erase]
  split
  · rename_i same
    rw [same, h]
  · rfl

theorem get?_foldl_insert (l : List (String × α)) (m : SortedMap α) (k : String)
    (hl : l.Pairwise fun a b => a.1 < b.1) :
    (l.foldl (fun m e => m.insert e.1 e.2) m).get? k = (l.lookup k).or (m.get? k) := by
  induction l generalizing m with
  | nil => simp
  | cons head rest ih =>
    obtain ⟨k₁, x₁⟩ := head
    rw [List.pairwise_cons] at hl
    rw [List.foldl_cons, ih _ hl.2, get?_insert, List.lookup_cons]
    by_cases h : k = k₁
    · subst h
      have : rest.lookup k = none := by
        apply Option.eq_none_iff_forall_ne_some.2
        intro x hx
        exact String.lt_irrefl _ (hl.1 (k, x) ((lookup_eq_some_iff hl.2).1 hx))
      simp [this]
    · simp [h, beq_false_of_ne h]

/-- Of two parts of a list of entries, the later counts. -/
theorem get?_ofList_append (l l' : List (String × α)) (k : String) :
    (ofList (l ++ l')).get? k = ((ofList l').get? k).or ((ofList l).get? k) := by
  have onto : ∀ (l : List (String × α)) (m : SortedMap α),
      (l.foldl (fun m e => m.insert e.1 e.2) m).get? k = ((ofList l).get? k).or (m.get? k) := by
    intro l
    induction l with
    | nil => exact fun m => rfl
    | cons e l ih =>
      intro m
      have first : (ofList (e :: l)).get? k =
          ((ofList l).get? k).or ((empty.insert e.1 e.2).get? k) := ih _
      rw [List.foldl_cons, ih, first, Option.or_assoc, get?_insert, get?_insert]
      split <;> rfl
  rw [ofList, List.foldl_append, onto]
  rfl

/-- An entry that may be missing. -/
theorem get?_ofList_optional (name : String) (value : Option α) (f : α → β) (k : String) :
    (ofList (value.toList.map fun x => (name, f x))).get? k =
      if k = name then value.map f else none := by
  cases value with
  | none => simp [ofList]
  | some x => exact get?_insert _ _ _ _

/-- Of entries with distinct keys that may each be missing, a key finds its own. -/
theorem get?_ofList_filterMap {ι : Type w} (name : ι → String) (value : ι → Option α) {l : List ι}
    (distinct : (l.map name).Nodup) (k : String) :
    (ofList (l.filterMap fun i => (value i).map (name i, ·))).get? k =
      (l.find? (name · = k)).bind value := by
  induction l with
  | nil => rfl
  | cons i l ih =>
    rw [List.map_cons, List.nodup_cons] at distinct
    have split : (i :: l).filterMap (fun i => (value i).map (name i, ·)) =
        ((value i).toList.map fun x => (name i, x)) ++
          l.filterMap fun i => (value i).map (name i, ·) := by
      cases h : value i <;> simp [h]
    rw [split, get?_ofList_append, ih distinct.2, get?_ofList_optional]
    by_cases here : name i = k
    · subst here
      have later : l.find? (name · = name i) = none := by
        refine List.find?_eq_none.mpr fun j hj same => distinct.1 ?_
        exact List.mem_map.mpr ⟨j, hj, of_decide_eq_true same⟩
      simp [later]
    · simp [here, Ne.symm here]

/-- The overlaid map has the patch's value where the patch has one, and the base's elsewhere. -/
theorem get?_overlay (m patch : SortedMap α) (k : String) :
    (m.overlay patch).get? k = (patch.get? k).or (m.get? k) :=
  get?_foldl_insert patch.entries m k patch.sorted

theorem insertEntry_map (f : String → α → β) (k : String) (x : α) (l : List (String × α)) :
    insertEntry k (f k x) (l.map fun e => (e.1, f e.1 e.2)) =
      (insertEntry k x l).map fun e => (e.1, f e.1 e.2) := by
  induction l with
  | nil => rfl
  | cons e l ih =>
    rw [List.map_cons, insertEntry, insertEntry]
    split
    · rfl
    · split
      · rfl
      · rw [ih, List.map_cons]

/-- The values of a list of entries can be replaced before or after the map is made of it. -/
theorem entries_ofList_map (f : String → α → β) (l : List (String × α)) :
    (ofList (l.map fun e => (e.1, f e.1 e.2))).entries =
      (ofList l).entries.map fun e => (e.1, f e.1 e.2) := by
  have onto : ∀ (m : SortedMap α) (n : SortedMap β),
      n.entries = (m.entries.map fun e => (e.1, f e.1 e.2)) →
      ((l.map fun e => (e.1, f e.1 e.2)).foldl (fun m e => m.insert e.1 e.2) n).entries =
        (l.foldl (fun m e => m.insert e.1 e.2) m).entries.map fun e => (e.1, f e.1 e.2) := by
    induction l with
    | nil => exact fun m n h => h
    | cons e l ih =>
      intro m n h
      refine ih (m.insert e.1 e.2) (n.insert e.1 (f e.1 e.2)) ?_
      change insertEntry e.1 (f e.1 e.2) n.entries = _
      rw [h, insertEntry_map]
      rfl
  exact onto empty empty rfl

theorem ofList_entries (m : SortedMap α) : ofList m.entries = m :=
  ext_get? fun k => (get?_overlay empty m k).trans (Option.or_none ..)

theorem get?_mapValues (f : α → β) (m : SortedMap α) (k : String) :
    (m.mapValues f).get? k = (m.get? k).map f := by
  apply Option.ext
  intro y
  rw [get?_eq_some_iff, Option.map_eq_some_iff]
  simp only [mapValues, List.mem_map, Prod.mk.injEq, get?_eq_some_iff]
  constructor
  · rintro ⟨⟨k', x⟩, he, rfl, rfl⟩
    exact ⟨x, he, rfl⟩
  · rintro ⟨x, he, rfl⟩
    exact ⟨(k, x), he, rfl, rfl⟩

theorem mapValues_insert (f : α → β) (m : SortedMap α) (k : String) (x : α) :
    (m.insert k x).mapValues f = (m.mapValues f).insert k (f x) := by
  refine ext_get? fun k' => ?_
  rw [get?_mapValues, get?_insert, get?_insert, get?_mapValues]
  split <;> rfl

theorem get?_filterMap (f : String → α → Option β) (m : SortedMap α) (k : String) :
    (m.filterMap f).get? k = (m.get? k).bind (f k) := by
  apply Option.ext
  intro y
  rw [get?_eq_some_iff, Option.bind_eq_some_iff]
  simp only [filterMap, List.mem_filterMap, Option.map_eq_some_iff, Prod.mk.injEq,
    get?_eq_some_iff]
  constructor
  · rintro ⟨⟨k', x⟩, he, y', hy, rfl, rfl⟩
    exact ⟨x, he, hy⟩
  · rintro ⟨x, he, hy⟩
    exact ⟨(k, x), he, y, hy, rfl, rfl⟩

/-- Replacing the values of a list of entries replaces what each key finds. -/
theorem get?_ofList_map (f : String → α → β) (l : List (String × α)) (k : String) :
    (ofList (l.map fun e => (e.1, f e.1 e.2))).get? k = ((ofList l).get? k).map (f k) := by
  have entries : ((ofList l).filterMap fun k x => some (f k x)).entries =
      (ofList l).entries.map fun e => (e.1, f e.1 e.2) := by
    simp [filterMap]
  have replaced : (ofList (l.map fun e => (e.1, f e.1 e.2))).get? k =
      ((ofList l).filterMap fun k x => some (f k x)).get? k := by
    rw [get?, get?, entries_ofList_map, entries]
  rw [replaced, get?_filterMap]
  cases (ofList l).get? k <;> rfl

theorem get?_filter (p : String → α → Bool) (m : SortedMap α) (k : String) :
    (m.filter p).get? k = (m.get? k).filter (p k) := by
  apply Option.ext
  intro x
  rw [get?_eq_some_iff, Option.filter_eq_some_iff, get?_eq_some_iff]
  exact List.mem_filter

theorem get?_filter_key (m : SortedMap α) (p : String → Bool) (k : String) :
    (m.filter fun k _ => p k).get? k = if p k then m.get? k else none := by
  rw [get?_filter]
  cases m.get? k <;> cases p k <;> rfl

theorem mem_keys {m : SortedMap α} {k : String} : k ∈ m.keys ↔ (m.get? k).isSome := by
  simp only [keys, List.mem_map, Option.isSome_iff_exists, get?_eq_some_iff]
  constructor
  · rintro ⟨⟨k, x⟩, he, rfl⟩
    exact ⟨x, he⟩
  · rintro ⟨x, he⟩
    exact ⟨(k, x), he, rfl⟩

/-- No two entries have the same key. -/
theorem keys_nodup (m : SortedMap α) : m.keys.Nodup :=
  List.pairwise_map.2 (m.sorted.imp String.ne_of_lt)

end SortedMap

end UserFederation
