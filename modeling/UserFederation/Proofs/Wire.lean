import UserFederation.Component.Json
import Mathlib.Data.List.Forall2
import Mathlib.Data.List.Induction

/-! What documents say. The document of a value says just this value (`Json.value?_document`), and
what a document says is held in order (`Document.ordered_of_value?`). A reader and a writer that
undo one another (`Document.Wire`) carry over to sequences, to maps and to the optional fields of a
record. -/

namespace UserFederation

namespace SortedMap

universe u

variable {α : Type u} {m : SortedMap α} {l : List (String × α)} {key : String}

/-- An ordered list of entries has one entry of a key at most. -/
theorem filter_key (h : l.Pairwise fun a b => a.1 < b.1) (key : String) :
    l.filter (·.1 = key) = ((l.lookup key).map (key, ·)).toList := by
  induction l with
  | nil => rfl
  | cons e l ih =>
    obtain ⟨k, x⟩ := e
    rw [List.pairwise_cons] at h
    by_cases same : k = key
    · subst same
      have others : l.filter (·.1 = k) = [] := by
        refine List.filter_eq_nil_iff.mpr fun e he eq => ?_
        exact String.ne_of_lt (h.1 e he) (of_decide_eq_true eq).symm
      simp [others]
    · rw [List.filter_cons_of_neg (by simpa using same), ih h.2, List.lookup_cons,
        beq_false_of_ne (Ne.symm same)]

theorem get?_ofList_singleton (e : String × α) (key : String) :
    (ofList [e]).get? key = if key = e.1 then some e.2 else none :=
  get?_insert empty e.1 key e.2

theorem get?_ofList (l : List (String × α)) (key : String) :
    (ofList l).get? key = (l.filter (·.1 = key)).getLast?.map (·.2) := by
  induction l using List.reverseRecOn with
  | nil => rfl
  | append_singleton l e ih =>
    rw [get?_ofList_append, get?_ofList_singleton, ih, List.filter_append]
    by_cases same : e.1 = key
    · simp [same]
    · simp [same, Ne.symm same]

theorem get?_ofList_filter (p : String → Bool) (h : p key) :
    (ofList (l.filter (p ·.1))).get? key = (ofList l).get? key := by
  rw [get?_ofList, get?_ofList, List.filter_filter]
  congr 2
  refine List.filter_congr fun e _ => ?_
  by_cases same : e.1 = key
  · simp [same, h]
  · simp [same]

theorem mem_of_mem_ofList {e : String × α} (h : e ∈ (ofList l).entries) : e ∈ l := by
  have last : (l.filter (·.1 = e.1)).getLast?.map (·.2) = some e.2 := by
    rw [← get?_ofList]
    exact get?_eq_some_iff.mpr h
  obtain ⟨e', he', same⟩ := Option.map_eq_some_iff.mp last
  obtain ⟨member, key⟩ := List.mem_filter.mp (List.mem_of_getLast? he')
  rwa [← Prod.ext (of_decide_eq_true key) same]

theorem ofList_map {β : Type u} (f : α → β) (l : List (String × α)) :
    ofList (l.map fun e => (e.1, f e.2)) = (ofList l).mapValues f := by
  refine ext_get? fun key => ?_
  rw [get?_mapValues, get?_ofList, get?_ofList, List.filter_map, List.getLast?_map, Option.map_map,
    Option.map_map]
  rfl

end SortedMap

/-! ### Values and what says them -/

namespace Json

mutual

/-- A value as it is held: each object in it has its keys in strictly increasing order. -/
def Ordered : Json → Prop
  | .arr items => OrderedItems items
  | .obj fields => (fields.Pairwise fun a b => a.1 < b.1) ∧ OrderedFields fields
  | .null | .bool _ | .int _ | .float _ | .str _ => True

def OrderedItems : List Json → Prop
  | [] => True
  | x :: xs => Ordered x ∧ OrderedItems xs

def OrderedFields : List (String × Json) → Prop
  | [] => True
  | (_, x) :: xs => Ordered x ∧ OrderedFields xs

end

theorem orderedFields_iff {fields : List (String × Json)} :
    OrderedFields fields ↔ ∀ e ∈ fields, e.2.Ordered := by
  induction fields with
  | nil => simp [OrderedFields]
  | cons e fields ih => rw [OrderedFields, ih, List.forall_mem_cons]

theorem itemDocuments_eq (items : List Json) : itemDocuments items = items.map document := by
  induction items with
  | nil => rfl
  | cons x items ih => rw [itemDocuments, ih, List.map_cons]

theorem fieldDocuments_eq (fields : List (String × Json)) :
    fieldDocuments fields = fields.map fun e => (e.1, e.2.document) := by
  induction fields with
  | nil => rfl
  | cons e fields ih => rw [fieldDocuments, ih, List.map_cons]

mutual

/-- A value is what its document says. -/
theorem value?_document : (x : Json) → x.Ordered → x.document.value? = some x
  | .null, _ | .bool _, _ | .int _, _ | .float _, _ | .str _, _ => rfl
  | .arr items, h => congrArg (Option.map arr) (values?_itemDocuments items h)
  | .obj fields, h => by
    have said := fieldValues?_fieldDocuments fields h.2
    have same : object fields = .obj fields :=
      congrArg ofMap (SortedMap.ofList_entries ⟨fields, h.1⟩)
    rw [document, Document.value?, said, Option.map_some, same]

theorem values?_itemDocuments : (items : List Json) → OrderedItems items →
    Document.values? (itemDocuments items) = some items
  | [], _ => rfl
  | x :: items, h => by
    rw [itemDocuments, Document.values?, value?_document x h.1, values?_itemDocuments items h.2]
    rfl

theorem fieldValues?_fieldDocuments : (fields : List (String × Json)) → OrderedFields fields →
    Document.fieldValues? (fieldDocuments fields) = some fields
  | [], _ => rfl
  | (k, x) :: fields, h => by
    rw [fieldDocuments, Document.fieldValues?, value?_document x h.1,
      fieldValues?_fieldDocuments fields h.2]
    rfl

end

end Json

namespace Document

variable {α : Type} {entries : List (String × Document)} {fields : List (String × Json)}
  {d : Document} {o : Option Document} {key : String}

theorem values?_cons_eq_some_iff {ds : List Document} {xs : List Json} :
    values? (d :: ds) = some xs ↔
      ∃ x, d.value? = some x ∧ ∃ rest, values? ds = some rest ∧ xs = x :: rest := by
  simp only [values?, Option.bind_eq_bind, Option.pure_def, Option.bind_eq_some_iff,
    Option.some.injEq, eq_comm (a := xs)]

theorem fieldValues?_cons_eq_some_iff :
    fieldValues? ((key, d) :: entries) = some fields ↔
      ∃ x, d.value? = some x ∧
        ∃ rest, fieldValues? entries = some rest ∧ fields = (key, x) :: rest := by
  simp only [fieldValues?, Option.bind_eq_bind, Option.pure_def, Option.bind_eq_some_iff,
    Option.some.injEq, eq_comm (a := fields)]

mutual

/-- What a document says is as values are held. -/
theorem ordered_of_value? : (d : Document) → {x : Json} → d.value? = some x → x.Ordered
  | .null, _, h | .bool _, _, h | .int _, _, h | .float _, _, h | .text _, _, h => by
    cases h
    trivial
  | .seq items, x, h => by
    obtain ⟨xs, said, rfl⟩ := Option.map_eq_some_iff.mp h
    exact ordered_of_values? items said
  | .map entries, x, h => by
    obtain ⟨fields, said, rfl⟩ := Option.map_eq_some_iff.mp h
    refine ⟨(SortedMap.ofList fields).sorted, Json.orderedFields_iff.mpr fun e he => ?_⟩
    exact Json.orderedFields_iff.mp (ordered_of_fieldValues? entries said) e
      (SortedMap.mem_of_mem_ofList he)
  | .unreadable, _, h => nomatch h

theorem ordered_of_values? : (ds : List Document) → {xs : List Json} → values? ds = some xs →
    Json.OrderedItems xs
  | [], _, h => by
    cases h
    trivial
  | d :: ds, xs, h => by
    obtain ⟨y, hy, ys, hys, rfl⟩ := values?_cons_eq_some_iff.mp h
    exact ⟨ordered_of_value? d hy, ordered_of_values? ds hys⟩

theorem ordered_of_fieldValues? : (entries : List (String × Document)) →
    {fields : List (String × Json)} → fieldValues? entries = some fields →
    Json.OrderedFields fields
  | [], _, h => by
    cases h
    trivial
  | (k, d) :: entries, fields, h => by
    obtain ⟨y, hy, ys, hys, rfl⟩ := fieldValues?_cons_eq_some_iff.mp h
    exact ⟨ordered_of_value? d hy, ordered_of_fieldValues? entries hys⟩

end

theorem mapM_eq_some_iff {α β : Type} {f : α → Option β} {as : List α} {bs : List β} :
    as.mapM f = some bs ↔ List.Forall₂ (fun a b => f a = some b) as bs := by
  induction as generalizing bs with
  | nil => simp [eq_comm]
  | cons a as ih =>
    simp only [List.mapM_cons, Option.bind_eq_bind, Option.pure_def, Option.bind_eq_some_iff, ih,
      Option.some.injEq, List.forall₂_cons_left_iff]
    exact exists_congr fun b => by grind

theorem exists_fieldValues?_iff :
    (∃ fields, fieldValues? entries = some fields) ↔ ∀ e ∈ entries, ∃ x, e.2.value? = some x := by
  induction entries with
  | nil => simp [fieldValues?]
  | cons e entries ih =>
    obtain ⟨k, d⟩ := e
    rw [List.forall_mem_cons, ← ih]
    simp only [fieldValues?_cons_eq_some_iff]
    constructor
    · rintro ⟨_, x, hx, rest, hrest, -⟩
      exact ⟨⟨x, hx⟩, rest, hrest⟩
    · rintro ⟨⟨x, hx⟩, rest, hrest⟩
      exact ⟨_, x, hx, rest, hrest, rfl⟩

theorem fieldValues?_filter (p : String → Bool) (h : fieldValues? entries = some fields) :
    fieldValues? (entries.filter (p ·.1)) = some (fields.filter (p ·.1)) := by
  induction entries generalizing fields with
  | nil =>
    cases h
    rfl
  | cons e entries ih =>
    obtain ⟨k, d⟩ := e
    obtain ⟨x, hx, rest, hrest, rfl⟩ := fieldValues?_cons_eq_some_iff.mp h
    by_cases kept : p k
    · rw [List.filter_cons_of_pos (by exact kept), List.filter_cons_of_pos (by exact kept),
        fieldValues?_cons_eq_some_iff]
      exact ⟨x, hx, _, ih hrest, rfl⟩
    · rw [List.filter_cons_of_neg (by exact kept), List.filter_cons_of_neg (by exact kept),
        ih hrest]

theorem entry?_eq_some_iff :
    entry? entries key = some o ↔ entries.filter (·.1 = key) = (o.map (key, ·)).toList := by
  have keyed : ∀ e ∈ entries.filter (·.1 = key), e.1 = key := fun e he =>
    of_decide_eq_true (List.mem_filter.mp he).2
  unfold entry?
  split
  · rename_i found
    rw [found]
    cases o <;> simp
  · rename_i e found
    rw [found] at keyed ⊢
    have same : e = (key, e.2) := Prod.ext (keyed e List.mem_cons_self) rfl
    cases o with
    | none => simp
    | some d => rw [same]; simp
  · rename_i notNone notSome
    refine ⟨nofun, fun eq => ?_⟩
    cases o with
    | none => exact absurd eq notNone
    | some d => exact absurd eq (notSome _)

/-- A value says under a key what the entry of the key says. -/
theorem get?_of_entry (h : entry? entries key = some o)
    (said : fieldValues? entries = some fields) :
    (SortedMap.ofList fields).get? key = o.bind value? := by
  have part := fieldValues?_filter (· = key) said
  rw [entry?_eq_some_iff.mp h] at part
  rw [SortedMap.get?_ofList]
  cases o with
  | none =>
    rw [← Option.some.inj part]
    rfl
  | some d =>
    obtain ⟨x, hx, rest, hrest, same⟩ := fieldValues?_cons_eq_some_iff.mp part
    cases hrest
    rw [same, Option.bind_some, hx]
    rfl

/-! ### Readers and writers -/

/-- A reader and a writer of values other than `null`, each of which undoes the other. -/
structure Wire (read : Document → Option α) (write : α → Json) : Prop where
  tells : ∀ {d a}, read d = some a → d.value? = some (write a)
  reads : ∀ a, read (write a).document = some a
  solid : ∀ a, write a ≠ .null

variable {β : Type} {as : List α} {read : Document → Option α} {write : α → Json}
  {R : Json → α → Prop}

theorem Wire.ordered (wire : Wire read write) (a : α) : (write a).Ordered :=
  ordered_of_value? _ (wire.tells (wire.reads a))

theorem text_wire : Wire text? .str where
  tells {d a} h := by
    cases d <;> cases h
    rfl
  reads _ := rfl
  solid _ h := by cases h

/-- What the items of a sequence say, they say one by one. -/
theorem items?_tells (tells : ∀ d a, read d = some a → ∃ x, d.value? = some x ∧ R x a)
    (h : items? read d = some as) : ∃ xs, d.value? = some (.arr xs) ∧ List.Forall₂ R xs as := by
  unfold items? at h
  split at h
  · rename_i items
    rw [mapM_eq_some_iff] at h
    suffices h : ∃ xs, values? items = some xs ∧ List.Forall₂ R xs as by
      obtain ⟨xs, said, related⟩ := h
      exact ⟨xs, by rw [value?, said]; rfl, related⟩
    induction h with
    | nil => exact ⟨[], rfl, .nil⟩
    | @cons d a items as first _ ih =>
      obtain ⟨x, said, related⟩ := tells d a first
      obtain ⟨xs, saids, relateds⟩ := ih
      exact ⟨x :: xs, values?_cons_eq_some_iff.mpr ⟨x, said, xs, saids, rfl⟩,
        .cons related relateds⟩
  · cases h

theorem exists_of_mem_items? {a : α} (h : items? read d = some as) (ha : a ∈ as) :
    ∃ d, read d = some a := by
  unfold items? at h
  split at h
  · rename_i items
    rw [mapM_eq_some_iff] at h
    induction h with
    | nil => cases ha
    | cons first _ ih =>
      rcases List.mem_cons.mp ha with rfl | later
      · exact ⟨_, first⟩
      · exact ih later
  · cases h

theorem items?_reads (reads : ∀ a ∈ as, read (write a).document = some a) :
    items? read (Json.arr (as.map write)).document = some as := by
  rw [Json.document, Json.itemDocuments_eq, List.map_map, items?, mapM_eq_some_iff,
    List.forall₂_map_left_iff, List.forall₂_same]
  exact reads

theorem Wire.items (wire : Wire read write) :
    Wire (items? read) fun as => .arr (as.map write) where
  tells {d as} h := by
    obtain ⟨xs, said, same⟩ := items?_tells (R := fun x a => x = write a)
      (fun d a ha => ⟨write a, wire.tells ha, rfl⟩) h
    rw [← List.forall₂_map_right_iff, List.forall₂_eq_eq_eq] at same
    rw [said, same]
  reads as := items?_reads fun a _ => wire.reads a
  solid _ h := by cases h

theorem Wire.mapOf (wire : Wire read write) :
    Wire (mapOf? read) fun m => .ofMap (m.mapValues write) where
  tells {d m} h := by
    unfold mapOf? at h
    split at h
    · rename_i entries
      obtain ⟨l, hl, rfl⟩ := Option.map_eq_some_iff.mp h
      rw [mapM_eq_some_iff] at hl
      have said : fieldValues? entries = some (l.map fun e => (e.1, write e.2)) := by
        clear h
        induction hl with
        | nil => rfl
        | @cons e e' entries l first _ ih =>
          obtain ⟨a, ha, rfl⟩ := Option.map_eq_some_iff.mp first
          exact fieldValues?_cons_eq_some_iff.mpr ⟨_, wire.tells ha, _, ih, rfl⟩
      rw [value?, said, Option.map_some, Json.object, SortedMap.ofList_map]
      rfl
    · cases h
  reads m := by
    have read : ((m.mapValues write).entries.map fun e => (e.1, e.2.document)).mapM
        (fun e => (read e.2).map (e.1, ·)) = some m.entries := by
      rw [mapM_eq_some_iff, SortedMap.mapValues, List.map_map, List.forall₂_map_left_iff,
        List.forall₂_same]
      intro e _
      simp [wire.reads]
    rw [Json.ofMap, Json.document, Json.fieldDocuments_eq, mapOf?, read, Option.map_some,
      SortedMap.ofList_entries]
  solid _ h := by cases h

/-- Reads a field that may be missing or `null`. -/
def fieldOf? (read : Document → Option α) (entries : List (String × Document)) (key : String) :
    Option (Option α) :=
  Option.bind (Document.entry? entries key) (optional? read)

/-- An optional field that is read says the value that was read, or `null` or nothing if there is
none. -/
theorem Wire.field_tells (wire : Wire read write) {a : Option α}
    (h : fieldOf? read entries key = some a) :
    (∀ e ∈ entries, e.1 = key → ∃ x, e.2.value? = some x) ∧
      ∀ fields, fieldValues? entries = some fields →
        ((SortedMap.ofList fields).get? key).filter (· ≠ .null) = a.map write := by
  obtain ⟨o, entry, part⟩ := Option.bind_eq_some_iff.mp h
  have only := entry?_eq_some_iff.mp entry
  suffices part : (∀ d, o = some d → ∃ x, d.value? = some x) ∧
      (o.bind value?).filter (· ≠ .null) = a.map write by
    refine ⟨fun e he hk => ?_, fun fields said => by rw [get?_of_entry entry said, part.2]⟩
    have member : e ∈ (o.map (key, ·)).toList := only ▸ List.mem_filter.mpr ⟨he, decide_eq_true hk⟩
    obtain ⟨d, hd, rfl⟩ := Option.map_eq_some_iff.mp (Option.mem_toList.mp member)
    exact part.1 d hd
  unfold optional? at part
  split at part
  · cases part
    exact ⟨nofun, rfl⟩
  · cases part
    exact ⟨fun d hd => ⟨.null, by cases hd; rfl⟩, rfl⟩
  · rename_i d _
    obtain ⟨x, hx, rfl⟩ := Option.map_eq_some_iff.mp part
    have said := wire.tells hx
    refine ⟨fun d' hd => ⟨write x, by cases hd; exact said⟩, ?_⟩
    rw [Option.bind_some, said, Option.filter_some, if_pos (by simpa using wire.solid x)]
    rfl

theorem entry?_fieldDocuments (m : SortedMap Json) (key : String) :
    entry? (Json.fieldDocuments m.entries) key = some ((m.get? key).map Json.document) := by
  rw [entry?_eq_some_iff, Json.fieldDocuments_eq, List.filter_map]
  change (m.entries.filter (·.1 = key)).map _ = _
  rw [SortedMap.filter_key m.sorted, ← SortedMap.get?]
  cases m.get? key <;> rfl

theorem Wire.field_reads (wire : Wire read write) {m : SortedMap Json} {a : Option α}
    (h : m.get? key = a.map write) :
    fieldOf? read (Json.fieldDocuments m.entries) key = some a := by
  rw [fieldOf?, entry?_fieldDocuments, h, Option.bind_some]
  cases a with
  | none => rfl
  | some a =>
    have solid : (write a).document ≠ .null := by
      have solid := wire.solid a
      revert solid
      cases write a <;> simp [Json.document]
    simp only [Option.map_some]
    rw [optional?, wire.reads]
    · rfl
    · exact solid

end Document

end UserFederation
