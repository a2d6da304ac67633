import UserFederation.Proofs.FollowUp
import UserFederation.Proofs.Wire

/-! What the requests of a client name. The arguments of a call are encoded into the path and the
query of a target. Taken apart at its separators and decoded, a target gives them back
(`Parts.of?_text`), so no argument adds to the parts of a target, and different targets are written
differently (`targets_lossless`). -/

namespace UserFederation

namespace Url

variable {separator : Char → Bool} {s : Char} {part : List Char} {parts : List (List Char)}

theorem splitWhere_plain (plain : ∀ c ∈ part, separator c = false) :
    splitWhere separator part = [part] := by
  induction part with
  | nil => rfl
  | cons c cs ih =>
    obtain ⟨hc, rest⟩ := List.forall_mem_cons.mp plain
    rw [splitWhere, hc, ih rest]
    rfl

theorem splitWhere_ne_nil (cs : List Char) : splitWhere separator cs ≠ [] := by
  cases cs with
  | nil => exact List.cons_ne_nil _ _
  | cons c cs =>
    rw [splitWhere]
    split
    · exact List.cons_ne_nil _ _
    · split <;> exact List.cons_ne_nil _ _

/-- A text is split at each separator. -/
theorem splitWhere_append (hs : separator s) (cs rest : List Char) :
    splitWhere separator (cs ++ s :: rest) =
      splitWhere separator cs ++ splitWhere separator rest := by
  induction cs with
  | nil => exact if_pos hs
  | cons c cs ih =>
    obtain ⟨part, parts, first⟩ := List.exists_cons_of_ne_nil (@splitWhere_ne_nil separator cs)
    rw [List.cons_append, splitWhere, splitWhere, ih, first]
    cases separator c <;> rfl

/-- Splitting undoes joining. -/
theorem splitWhere_intercalate (hs : separator s) (some_ : parts ≠ [])
    (plain : ∀ part ∈ parts, ∀ c ∈ part, separator c = false) :
    splitWhere separator ([s].intercalate parts) = parts := by
  induction parts with
  | nil => exact absurd rfl some_
  | cons part parts ih =>
    obtain ⟨hpart, rest⟩ := List.forall_mem_cons.mp plain
    cases parts with
    | nil => simpa using splitWhere_plain hpart
    | cons next parts =>
      rw [List.intercalate_cons_cons, List.append_assoc, List.singleton_append,
        splitWhere_append hs, splitWhere_plain hpart, ih (by simp) rest]
      rfl

end Url

namespace Http

/-! ### Parts of a target -/

/-- The segments of the path and the parameters of the query of a target. -/
structure Parts where
  path : List String
  query : List (String × String)
  deriving DecidableEq

namespace Parts

/-- A parameter: a name and a value. -/
def parameter? (cs : List Char) : Option (String × String) :=
  match Url.splitWhere (· = '=') cs with
  | [name, value] => return (← Percent.decode? name, ← Percent.decode? value)
  | _ => none

/-- Takes a target apart. -/
def of? (cs : List Char) : Option Parts := do
  let (path, query) := Url.pathAndQuery cs
  let path ← (Url.splitWhere (· = '/') path).mapM Percent.decode?
  let query ← (query.elim [] (Url.splitWhere (· = '&'))).mapM parameter?
  return { path, query }

/-- The path of some parts. -/
def pathText (p : Parts) : List Char :=
  ['/'].intercalate (p.path.map fun s => (Percent.encode s).toList)

/-- The query of some parts. -/
def queryText (p : Parts) : List Char :=
  ['&'].intercalate (p.query.map fun e =>
    ['='].intercalate [(Percent.encode e.1).toList, (Percent.encode e.2).toList])

/-- The target of some parts. -/
def text (p : Parts) : List Char :=
  p.pathText ++ if p.query = [] then [] else '?' :: p.queryText

variable {s : String} {c d : Char} {p : Parts}

/-- A reserved character other than a percent sign never comes from an argument. -/
theorem ne_of_mem_encode (h : c ∈ (Percent.encode s).toList)
    (reserved : Percent.isUnreserved d = false) (other : d ≠ '%') : c ≠ d := by
  rintro rfl
  rcases Percent.mem_encode h with unreserved | percent
  · rw [unreserved] at reserved
    cases reserved
  · exact other percent

theorem mem_intercalate {sep : Char} {parts : List (List Char)}
    (h : c ∈ [sep].intercalate parts) : c = sep ∨ ∃ part ∈ parts, c ∈ part := by
  induction parts with
  | nil => cases h
  | cons part parts ih =>
    cases parts with
    | nil => exact .inr ⟨part, List.mem_cons_self, by simpa using h⟩
    | cons next parts =>
      rw [List.intercalate_cons_cons, List.mem_append, List.mem_append, List.mem_singleton] at h
      rcases h with (here | here) | later
      · exact .inr ⟨part, List.mem_cons_self, here⟩
      · exact .inl here
      · rcases ih later with here | ⟨other, member, hc⟩
        · exact .inl here
        · exact .inr ⟨other, List.mem_cons_of_mem _ member, hc⟩

theorem parameter?_encode (name value : String) : parameter?
    (['='].intercalate [(Percent.encode name).toList, (Percent.encode value).toList]) =
      some (name, value) := by
  have apart : Url.splitWhere (· = '=')
      (['='].intercalate [(Percent.encode name).toList, (Percent.encode value).toList]) =
        [(Percent.encode name).toList, (Percent.encode value).toList] := by
    refine Url.splitWhere_intercalate (by decide) (by simp) ?_
    simp only [List.forall_mem_cons, List.not_mem_nil, false_imp_iff, implies_true, and_true]
    exact ⟨fun c hc => decide_eq_false (ne_of_mem_encode hc (by decide) (by decide)),
      fun c hc => decide_eq_false (ne_of_mem_encode hc (by decide) (by decide))⟩
  rw [parameter?, apart]
  simp only [Percent.decode?_encode]
  rfl

/-- A path holds nothing reserved but slashes. -/
theorem ne_of_mem_pathText (h : c ∈ p.pathText) (reserved : Percent.isUnreserved d = false)
    (other : d ≠ '%') (separator : d ≠ '/') : c ≠ d := by
  rcases mem_intercalate h with rfl | ⟨part, member, hc⟩
  · exact separator.symm
  · obtain ⟨s, -, rfl⟩ := List.mem_map.mp member
    exact ne_of_mem_encode hc reserved other

/-- A query holds nothing reserved but what separates parameters and their values. -/
theorem ne_of_mem_queryText (h : c ∈ p.queryText) (reserved : Percent.isUnreserved d = false)
    (other : d ≠ '%') (separators : d ≠ '&' ∧ d ≠ '=') : c ≠ d := by
  rcases mem_intercalate h with rfl | ⟨part, member, hc⟩
  · exact separators.1.symm
  · obtain ⟨e, -, rfl⟩ := List.mem_map.mp member
    rcases mem_intercalate hc with rfl | ⟨part, member, hc⟩
    · exact separators.2.symm
    · simp only [List.mem_cons, List.not_mem_nil, or_false] at member
      rcases member with rfl | rfl <;> exact ne_of_mem_encode hc reserved other

theorem hash_not_mem_text : '#' ∉ p.text := by
  intro h
  rcases List.mem_append.mp h with path | query
  · exact ne_of_mem_pathText path (by decide) (by decide) (by decide) rfl
  · split at query
    · cases query
    · rcases List.mem_cons.mp query with mark | query
      · exact absurd mark (by decide)
      · exact ne_of_mem_queryText query (by decide) (by decide) (by decide) rfl

/-- The first question mark of a target divides its path from its query. -/
theorem pathAndQuery_text :
    Url.pathAndQuery p.text = (p.pathText, if p.query = [] then none else some p.queryText) := by
  have whole : p.text.takeWhile (· ≠ '#') = p.text := by
    refine List.takeWhile_eq_self_iff.mpr fun c hc => decide_eq_true ?_
    rintro rfl
    exact hash_not_mem_text hc
  have path : ∀ c ∈ p.pathText, decide (c ≠ '?') = true :=
    fun c hc => decide_eq_true (ne_of_mem_pathText hc (by decide) (by decide) (by decide))
  rw [Url.pathAndQuery, whole, text, List.dropWhile_append_of_pos path,
    List.takeWhile_append_of_pos path]
  by_cases none : p.query = []
  · simp [none]
  · simp [none]

/-- Parts are read back from their target. -/
theorem of?_text (some_ : p.path ≠ []) : of? p.text = some p := by
  have path : (Url.splitWhere (· = '/') p.pathText).mapM Percent.decode? = some p.path := by
    rw [pathText, Url.splitWhere_intercalate (by decide) (by simpa using some_),
      Document.mapM_eq_some_iff, List.forall₂_map_left_iff, List.forall₂_same]
    · exact fun s _ => Percent.decode?_encode s
    · intro part member c hc
      obtain ⟨s, -, rfl⟩ := List.mem_map.mp member
      exact decide_eq_false (ne_of_mem_encode hc (by decide) (by decide))
  have query : ((if p.query = [] then none else some p.queryText).elim []
      (Url.splitWhere (· = '&'))).mapM parameter? = some p.query := by
    by_cases none : p.query = []
    · rw [if_pos none, none]
      rfl
    · rw [if_neg none, Option.elim_some, queryText,
        Url.splitWhere_intercalate (by decide) (by simpa using none),
        Document.mapM_eq_some_iff, List.forall₂_map_left_iff, List.forall₂_same]
      · exact fun e _ => parameter?_encode e.1 e.2
      · intro part member c hc
        obtain ⟨e, -, rfl⟩ := List.mem_map.mp member
        refine decide_eq_false ?_
        rcases mem_intercalate hc with rfl | ⟨part, member, hc⟩
        · decide
        · simp only [List.mem_cons, List.not_mem_nil, or_false] at member
          rcases member with rfl | rfl <;> exact ne_of_mem_encode hc (by decide) (by decide)
  rw [of?, pathAndQuery_text]
  simp only [path, query]
  rfl

end Parts

/-! ### Targets of calls -/

/-- What a request is about. -/
inductive Target
  /-- The components of a realm. -/
  | collection (realm : String)
  | component (realm id : String)
  /-- The components of a type and a name. -/
  | named (realm type name : String)
  /-- The components right below one. -/
  | children (realm parent : String)
  deriving DecidableEq

namespace Target

/-- The path and the query of a target. -/
def text : Target → String
  | .collection realm => componentsPath realm
  | .component realm id => componentPath realm id
  | .named realm type name => findPath realm type name
  | .children realm parent => childrenPath realm parent

/-- What the parts of a target stand for. -/
def parts : Target → Parts
  | .collection realm => ⟨["", "admin", "realms", realm, "components"], []⟩
  | .component realm id => ⟨["", "admin", "realms", realm, "components", id], []⟩
  | .named realm type name =>
    ⟨["", "admin", "realms", realm, "components"], [("type", type), ("name", name)]⟩
  | .children realm parent =>
    ⟨["", "admin", "realms", realm, "components"], [("parent", parent)]⟩

theorem parts_injective : Function.Injective parts := by
  intro t t' same
  cases t <;> cases t' <;> simp_all [parts]

/-- What stands in targets besides the arguments. -/
def words : List String := ["", "admin", "realms", "components", "type", "name", "parent"]

theorem encode_word : ∀ word ∈ words, Percent.encode word = word := by decide

/-- A target is written part by part. -/
theorem toList_text (t : Target) : t.text.toList = t.parts.text := by
  obtain ⟨h₁, h₂, h₃, h₄, h₅, h₆, h₇, -⟩ := by
    simpa only [words, List.forall_mem_cons] using encode_word
  have path (realm : String) : (componentsPath realm).toList =
      (parts (.collection realm)).pathText := by
    simp [componentsPath, parts, Parts.pathText, h₁, h₂, h₃, h₄, List.intercalate_cons_cons]
  cases t with
  | collection realm =>
    rw [text, path]
    exact (List.append_nil _).symm
  | component realm id =>
    simp [text, componentPath, path, parts, Parts.text, Parts.pathText, List.intercalate_cons_cons]
  | named realm type name =>
    simp [text, findPath, path, parts, Parts.text, Parts.pathText, Parts.queryText, h₅, h₆,
      List.intercalate_cons_cons]
  | children realm parent =>
    simp [text, childrenPath, path, parts, Parts.text, Parts.pathText, Parts.queryText, h₇,
      List.intercalate_cons_cons]

theorem of?_text (t : Target) : Parts.of? t.text.toList = some t.parts := by
  rw [toList_text]
  exact Parts.of?_text (by cases t <;> simp [parts])

theorem text_injective : Function.Injective text := by
  intro t t' same
  have apart := of?_text t
  rw [same, of?_text] at apart
  exact parts_injective (Option.some.inj apart).symm

end Target

/-- What a call asks for first: how, where, and with which body. -/
def asks? : Call → Option (Method × Target × Option Json)
  | .find realm type name => some (.get, .named realm type name, none)
  | .get id realm => some (.get, .component realm id, none)
  | .create component realm => some (.post, .collection realm, some component.json)
  | .update component realm =>
    component.id.map fun id => (.put, .component realm id, some component.json)
  | .delete id realm => some (.delete, .component realm id, none)
  | .children parent realm => some (.get, .children realm parent, none)

/-- The first request of a call. -/
def Client.opening? (c : Client) (call : Call) : Option Request :=
  (asks? call).bind fun (method, target, body) => c.request? method target.text body

theorem starts_fetchList (c : Client) (path : String) :
    Starts (c.request? .get path none) (c.fetchList path) :=
  (starts_send c .get path none).bind _

theorem starts_order (c : Client) (method : Method) (path : String) (body : Option Json) :
    Starts (c.request? method path body) (c.order method path body) :=
  (starts_send c method path body).bind _

theorem starts_create (c : Client) (component : Component) (realm : String) :
    Starts (c.request? .post (componentsPath realm) (some component.json))
      (c.create component realm) :=
  (starts_send c .post (componentsPath realm) (some component.json)).bind _

/-- A client starts a call with the request for its target. -/
theorem starts_answer (c : Client) (call : Call) : Starts (c.opening? call) (c.answer call) := by
  unfold Client.opening?
  cases call with
  | find realm type name =>
    simp only [asks?, Option.bind_some, Target.text]
    exact starts_fetchList c (findPath realm type name)
  | get id realm =>
    simp only [asks?, Option.bind_some, Target.text]
    exact starts_fetch c id realm
  | create component realm =>
    simp only [asks?, Option.bind_some, Target.text]
    exact starts_create c component realm
  | update component realm =>
    cases hid : component.id with
    | none =>
      simp only [asks?, hid, Client.answer]
      exact ⟨_, rfl⟩
    | some id =>
      simp only [asks?, hid, Client.answer, Option.map_some, Option.bind_some, Target.text]
      exact starts_order c .put (componentPath realm id) (some component.json)
  | delete id realm =>
    simp only [asks?, Option.bind_some, Target.text]
    exact starts_order c .delete (componentPath realm id) none
  | children parent realm =>
    simp only [asks?, Option.bind_some, Target.text]
    exact starts_fetchList c (childrenPath realm parent)

/-- The call that looks up what a target is about. -/
def Target.lookup? : Target → Option Call
  | .collection _ => none
  | .component realm id => some (.get id realm)
  | .named realm type name => some (.find realm type name)
  | .children realm parent => some (.children parent realm)

theorem lookup?_of_asks? {call : Call} {t : Target} {body : Option Json}
    (h : asks? call = some (.get, t, body)) : t.lookup? = some call := by
  cases call with
  | find | get | children => cases h; rfl
  | create | delete => cases h
  | update component realm =>
    obtain ⟨id, -, other⟩ := Option.map_eq_some_iff.mp h
    cases other

/-- Targets are lossless. Taken apart at its separators and decoded, a target gives back the realm
and the other arguments, and nothing else, and it has no fragment. So targets that are about
different things are different, as are those of two calls that look something up. -/
theorem targets_lossless :
    (∀ t : Target, Parts.of? t.text.toList = some t.parts ∧ '#' ∉ t.text.toList) ∧
    Function.Injective Target.text ∧
    (∀ call call' t t', asks? call = some (.get, t, none) → asks? call' = some (.get, t', none) →
      t.text = t'.text → call = call') ∧
    ∀ (c : Client) (call : Call), requests (c.answer call).run [] = (c.opening? call).toList := by
  refine ⟨fun t => ⟨t.of?_text, ?_⟩, Target.text_injective, fun call call' t t' h h' same => ?_,
    fun c call => (starts_answer c call).requests⟩
  · rw [Target.toList_text]
    exact Parts.hash_not_mem_text
  · have found := lookup?_of_asks? h
    rw [Target.text_injective same, lookup?_of_asks? h'] at found
    exact (Option.some.inj found).symm

/-- Two calls that would ask for one target if their arguments were not encoded. -/
theorem ambiguous_lookups_differ :
    findPath "master" "a&name=b" "c" ≠ findPath "master" "a" "b&name=c" := by
  intro same
  have call := targets_lossless.2.2.1 (.find "master" "a&name=b" "c")
    (.find "master" "a" "b&name=c") _ _ rfl rfl same
  exact absurd call (by decide)

end Http

end UserFederation
