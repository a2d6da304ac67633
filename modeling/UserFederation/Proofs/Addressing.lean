import UserFederation.Declaration.Basic
import UserFederation.Proofs.Targets

/-! Which component a request is about once its address is resolved. Dots are never encoded, and a
segment of one or two dots is no name: it stands for its place, or for the place above. So a request
for a component stays below the components of its realm just if neither the realm nor the id is such
a segment and the id is not empty (`stays_inside_iff`). -/

namespace UserFederation

/-! ### Dots -/

theorem toNat_toLower (c : Char) : c.toLower.toNat =
    if 65 ≤ c.toNat ∧ c.toNat ≤ 90 then c.toNat + 32 else c.toNat := by
  unfold Char.toLower
  split
  · rename_i h
    have bounds : 65 ≤ c.toNat ∧ c.toNat ≤ 90 := by simpa [UInt32.le_iff_toNat_le] using h
    have small : c.val.toNat ≤ 90 := bounds.2
    rw [if_pos bounds]
    simp only [Char.toNat, UInt32.toNat_add, UInt32.toNat_sub]
    simp
    omega
  · rename_i h
    rw [if_neg]
    simpa [UInt32.le_iff_toNat_le] using h

theorem eq_of_toLower_eq {c d : Char} (h : c.toLower = d) (other : d.toNat < 97) : c = d := by
  have code := toNat_toLower c
  rw [h] at code
  split at code
  · omega
  · exact (Char.toNat_inj.mp code).symm

namespace Percent

variable {cs lower : List Char} {s : String}

/-- A dot, which may be escaped, at the start of a text. -/
theorem decodeBytes_dot (h : cs.map Char.toLower = '.' :: lower ∨
      cs.map Char.toLower = '%' :: '2' :: 'e' :: lower) :
    ∃ rest, rest.map Char.toLower = lower ∧ decodeBytes cs = 0x2E :: decodeBytes rest := by
  rcases h with h | h
  · obtain ⟨a, rest, rfl, ha, hrest⟩ := List.map_eq_cons_iff.mp h
    cases eq_of_toLower_eq ha (by decide)
    exact ⟨rest, hrest, decodeBytes_cons (by decide) rest⟩
  · obtain ⟨a, _, rfl, ha, h⟩ := List.map_eq_cons_iff.mp h
    obtain ⟨b, _, rfl, hb, h⟩ := List.map_eq_cons_iff.mp h
    obtain ⟨c, rest, rfl, hc, hrest⟩ := List.map_eq_cons_iff.mp h
    cases eq_of_toLower_eq ha (by decide)
    cases eq_of_toLower_eq hb (by decide)
    have digit : Text.hexNumber? ['2', c] = some 0x2E := by
      have code := toNat_toLower c
      rw [hc] at code
      split at code
      · cases Char.toNat_inj.mp (show c.toNat = 'E'.toNat by simp at code ⊢; omega)
        decide
      · cases Char.toNat_inj.mp code
        decide
    exact ⟨rest, hrest, by rw [decodeBytes, digit]⟩

end Percent

namespace Url

open Percent

variable {segment : List Char} {s : String}

theorem decodeBytes_of_isSingleDot (h : isSingleDot segment) : decodeBytes segment = [0x2E] := by
  have lower : segment.map Char.toLower = ['.'] ∨ segment.map Char.toLower = ['%', '2', 'e'] := by
    simpa [isSingleDot, String.ext_iff] using h
  obtain ⟨rest, none, first⟩ := decodeBytes_dot lower
  rw [first, List.map_eq_nil_iff.mp none]
  rfl

theorem decodeBytes_of_isDoubleDot (h : isDoubleDot segment) :
    decodeBytes segment = [0x2E, 0x2E] := by
  have lower : (segment.map Char.toLower = '.' :: ['.'] ∨
        segment.map Char.toLower = '%' :: '2' :: 'e' :: ['.']) ∨
      (segment.map Char.toLower = '.' :: ['%', '2', 'e'] ∨
        segment.map Char.toLower = '%' :: '2' :: 'e' :: ['%', '2', 'e']) := by
    have words : segment.map Char.toLower = ['.', '.'] ∨
        segment.map Char.toLower = ['.', '%', '2', 'e'] ∨
        segment.map Char.toLower = ['%', '2', 'e', '.'] ∨
        segment.map Char.toLower = ['%', '2', 'e', '%', '2', 'e'] := by
      simpa [isDoubleDot, String.ext_iff] using h
    tauto
  have second : ∃ rest, (rest.map Char.toLower = ['.'] ∨ rest.map Char.toLower = ['%', '2', 'e']) ∧
      decodeBytes segment = 0x2E :: decodeBytes rest := by
    rcases lower with lower | lower
    · obtain ⟨rest, hrest, first⟩ := decodeBytes_dot lower
      exact ⟨rest, .inl hrest, first⟩
    · obtain ⟨rest, hrest, first⟩ := decodeBytes_dot lower
      exact ⟨rest, .inr hrest, first⟩
  obtain ⟨rest, hrest, first⟩ := second
  obtain ⟨rest', none, second⟩ := decodeBytes_dot hrest
  rw [first, second, List.map_eq_nil_iff.mp none]
  rfl

/-- An encoded text is a dot segment just if the text is. -/
theorem isSingleDot_encode : isSingleDot (encode s).toList ↔ s = "." := by
  constructor
  · exact fun h => eq_of_decodeBytes (decodeBytes_of_isSingleDot h)
  · rintro rfl
    decide

theorem isDoubleDot_encode : isDoubleDot (encode s).toList ↔ s = ".." := by
  constructor
  · exact fun h => eq_of_decodeBytes (decodeBytes_of_isDoubleDot h)
  · rintro rfl
    decide

/-- Nothing in an encoded text has to be encoded in a path. -/
theorem encodePart_encode : encodePart isEncodedInPath (encode s).toList = encode s := by
  have reserved (c : Char) (h : isEncodedInPath c) : isUnreserved c = false ∧ c ≠ '%' := by
    simp only [isEncodedInPath, isAlwaysEncoded, isControlOrBlank, Bool.or_eq_true,
      decide_eq_true_eq] at h
    rcases h with other | mark
    · refine ⟨?_, ?_⟩
      · rw [Bool.eq_false_iff]
        intro unreserved
        have := unreserved_bounds unreserved
        omega
      · rintro rfl
        exact absurd other (by decide)
    · have member : c ∈ ['"', '#', '<', '>', '?', '\x60', '\x7b', '\x7d'] := by simpa using mark
      simp only [List.mem_cons, List.not_mem_nil, or_false] at member
      rcases member with rfl | rfl | rfl | rfl | rfl | rfl | rfl | rfl <;>
        exact ⟨by decide, by decide⟩
  have plain : ∀ c ∈ (encode s).toList, isEncodedInPath c = false := by
    intro c hc
    rw [Bool.eq_false_iff]
    intro h
    obtain ⟨marked, other⟩ := reserved c h
    rcases mem_encode hc with unreserved | percent
    · rw [marked] at unreserved
      cases unreserved
    · exact other percent
  rw [encodePart, encodeWhere_eq_self_iff.mpr plain, String.ofList_toList]

/-! ### Resolution -/

/-- Goes on along one segment. -/
def walk (path : List String) (segment : List Char) : List String :=
  if isDoubleDot segment then path.dropLast
  else if isSingleDot segment then path
  else path ++ [encodePart isEncodedInPath segment]

variable {path : List String} {segments rest : List (List Char)}

theorem resolve_cons (h : rest ≠ []) :
    resolve path (segment :: rest) = resolve (walk path segment) rest := by
  obtain ⟨next, rest, rfl⟩ := List.exists_cons_of_ne_nil h
  rw [resolve, walk]
  · split
    · rfl
    · split <;> rfl
  · simp

theorem resolve_append (h : rest ≠ []) :
    resolve path (segments ++ rest) = resolve (segments.foldl walk path) rest := by
  induction segments generalizing path with
  | nil => rfl
  | cons segment segments ih =>
    rw [List.cons_append, resolve_cons (by simp [h]), ih]
    rfl

theorem walk_encode : walk path (encode s).toList =
    if s = ".." then path.dropLast else if s = "." then path else path ++ [encode s] := by
  simp only [walk, isDoubleDot_encode, isSingleDot_encode, encodePart_encode]

theorem resolve_encode : resolve path [(encode s).toList] =
    if s = ".." then path.dropLast ++ [""] else if s = "." then path ++ [""]
    else path ++ [encode s] := by
  simp only [resolve, isDoubleDot_encode, isSingleDot_encode, encodePart_encode]

/-! ### Addresses -/

/-- A text without what does not count in an address. -/
def trim (cs : List Char) : List Char :=
  (((cs.dropWhile isControlOrBlank).reverse.dropWhile isControlOrBlank).reverse).filter fun c =>
    c ≠ '\t' && c ≠ '\n' && c ≠ '\r'

theorem parse?_none (text : String) : parse? none text =
    match scheme? (trim text.toList) with
    | none => none
    | some (scheme, rest) =>
      if !isKnownScheme scheme then none
      else authority? (scheme = "https") (rest.dropWhile isSlash) := by
  unfold parse?
  dsimp only
  rw [← trim]
  cases scheme? (trim text.toList) with
  | none => rfl
  | some parts => rfl

theorem mem_of_mem_trim {cs : List Char} {c : Char} (h : c ∈ trim cs) : c ∈ cs :=
  (List.dropWhile_sublist _).subset (List.mem_reverse.mp
    ((List.dropWhile_sublist _).subset (List.mem_reverse.mp (List.mem_filter.mp h).1)))

/-- Trimming a text that goes on keeps what it keeps of the text, what follows, and the blanks
between them. -/
theorem trim_append {cs : List Char} (some_ : trim cs ≠ []) : ∃ blanks, (∀ c ∈ blanks, c ∈ cs) ∧
    ∀ tail, tail ≠ [] → (∀ c ∈ tail, isControlOrBlank c = false) →
      trim (cs ++ tail) = trim cs ++ (blanks ++ tail) := by
  let keep := fun c : Char => decide (c ≠ '\t') && decide (c ≠ '\n') && decide (c ≠ '\r')
  let ends := (cs.dropWhile isControlOrBlank).reverse.takeWhile isControlOrBlank
  have whole : cs.dropWhile isControlOrBlank =
      ((cs.dropWhile isControlOrBlank).reverse.dropWhile isControlOrBlank).reverse ++
        ends.reverse := by
    rw [← List.reverse_append, List.takeWhile_append_dropWhile, List.reverse_reverse]
  have parts : (cs.dropWhile isControlOrBlank).filter keep =
      trim cs ++ ends.reverse.filter keep := by
    rw [trim, ← List.filter_append, ← whole]
  refine ⟨ends.reverse.filter keep, fun c hc => ?_, fun tail more clean => ?_⟩
  · have member := (List.takeWhile_sublist _).subset (List.mem_reverse.mp (List.mem_filter.mp hc).1)
    exact (List.dropWhile_sublist _).subset (List.mem_reverse.mp member)
  · have kept : tail.filter keep = tail := by
      refine List.filter_eq_self.mpr fun c hc => ?_
      have solid := clean c hc
      have visible : c ≠ '\t' ∧ c ≠ '\n' ∧ c ≠ '\r' := by
        refine ⟨?_, ?_, ?_⟩ <;> rintro rfl <;> exact absurd solid (by decide)
      simp [keep, visible]
    have front : (cs ++ tail).dropWhile isControlOrBlank =
        cs.dropWhile isControlOrBlank ++ tail := by
      rw [List.dropWhile_append, if_neg]
      intro none
      exact some_ (by rw [trim, List.isEmpty_iff.mp none]; rfl)
    have back : (tail.reverse ++ (cs.dropWhile isControlOrBlank).reverse).dropWhile
        isControlOrBlank = tail.reverse ++ (cs.dropWhile isControlOrBlank).reverse := by
      obtain ⟨c, rest, h⟩ := List.exists_cons_of_ne_nil (List.reverse_ne_nil_iff.mpr more)
      rw [h, List.cons_append]
      refine List.dropWhile_cons_of_neg ?_
      simp [clean c (List.mem_reverse.mp (h ▸ List.mem_cons_self))]
    rw [trim, front, List.reverse_append, back, List.reverse_append, List.reverse_reverse,
      List.reverse_reverse, List.filter_append]
    change (cs.dropWhile isControlOrBlank).filter keep ++ tail.filter keep = _
    rw [parts, kept, List.append_assoc]

/-- A scheme is a part of a text, and it is found there however the text goes on. -/
theorem scheme?_append {cs rest : List Char} {scheme : String}
    (h : scheme? cs = some (scheme, rest)) : (∀ c ∈ rest, c ∈ cs) ∧
      ∀ more, scheme? (cs ++ more) = some (scheme, rest ++ more) := by
  unfold scheme? at h ⊢
  dsimp only at h ⊢
  generalize isPart : (fun c : Char => c.isAlphanum || decide (c = '+') || decide (c = '-') ||
    decide (c = '.')) = p at h ⊢
  split at h
  · rename_i c word after front back
    have whole : cs = (c :: word) ++ ':' :: after := by
      rw [← front, ← back, List.takeWhile_append_dropWhile]
    have all : ∀ d ∈ c :: word, p d = true := fun d hd => List.mem_takeWhile_imp (front ▸ hd)
    have colon : ¬p ':' = true := by
      rw [← isPart]
      decide
    have sub : ∀ d ∈ after, d ∈ cs := fun d hd => by simp [whole, hd]
    refine ⟨?_, fun more => ?_⟩
    · split at h
      · cases h
        exact sub
      · cases h
    have longer : cs ++ more = (c :: word) ++ ':' :: (after ++ more) := by simp [whole]
    have front' : (cs ++ more).takeWhile p = c :: word := by
      rw [longer, List.takeWhile_append_of_pos all, List.takeWhile_cons_of_neg colon,
        List.append_nil]
    have back' : (cs ++ more).dropWhile p = ':' :: (after ++ more) := by
      rw [longer, List.dropWhile_append_of_pos all, List.dropWhile_cons_of_neg colon]
    simp only [front', back']
    split at h
    · rename_i letter
      cases h
      rw [if_pos letter]
    · cases h
  · cases h

theorem pathAndQuery_append {before : List Char} (plain : ∀ c ∈ before, c ≠ '?' ∧ c ≠ '#')
    (rest : List Char) : pathAndQuery (before ++ rest) =
      (before ++ (pathAndQuery rest).1, (pathAndQuery rest).2) := by
  have hash : ∀ c ∈ before, decide (c ≠ '#') = true := fun c hc => decide_eq_true (plain c hc).2
  have mark : ∀ c ∈ before, decide (c ≠ '?') = true := fun c hc => decide_eq_true (plain c hc).1
  unfold pathAndQuery
  rw [List.takeWhile_append_of_pos hash]
  dsimp only
  rw [List.dropWhile_append_of_pos mark, List.takeWhile_append_of_pos mark]
  split <;> rfl

/-- What follows an authority is followed from the root. -/
theorem authority?_follow {secure : Bool} {cs : List Char} {url : Url}
    (h : authority? secure cs = some url) : ∃ u : Url, url = u.follow []
      (match cs.dropWhile (fun c => !(isSlash c || c = '?' || c = '#')) with
        | c :: rest => if isSlash c then rest else c :: rest
        | [] => []) := by
  unfold authority? at h
  dsimp only at h
  split at h
  · obtain ⟨number, -, h⟩ := Option.bind_eq_some_iff.mp h
    obtain ⟨host, -, h⟩ := Option.bind_eq_some_iff.mp h
    exact ⟨_, (Option.some.inj h).symm⟩
  · obtain ⟨number, -, h⟩ := Option.bind_eq_some_iff.mp h
    obtain ⟨host, -, h⟩ := Option.bind_eq_some_iff.mp h
    exact ⟨_, (Option.some.inj h).symm⟩
  · cases h

theorem authority?_nil (secure : Bool) : authority? secure [] = none := by
  cases secure <;> rfl

/-- Below one authority and what follows it, all paths are followed from one place. -/
theorem authority?_append (secure : Bool) {before : List Char}
    (plain : ∀ c ∈ before, c ≠ '?' ∧ c ≠ '#') : ∃ front : List String, ∀ (path : List Char)
      (url : Url), authority? secure (before ++ '/' :: path) = some url →
        url.path = resolve front (splitWhere isSlash (pathAndQuery path).1) := by
  let inside := fun c : Char => !(isSlash c || c = '?' || c = '#')
  cases after : before.dropWhile inside with
  | nil =>
    refine ⟨[], fun path url h => ?_⟩
    obtain ⟨u, rfl⟩ := authority?_follow h
    have rest : (before ++ '/' :: path).dropWhile inside = '/' :: path := by
      rw [List.dropWhile_append, after]
      rfl
    rw [rest]
    rfl
  | cons c later =>
    have here : ∀ d ∈ c :: later, d ≠ '?' ∧ d ≠ '#' :=
      fun d hd => plain d ((List.dropWhile_sublist inside).subset (after ▸ hd))
    have slash : isSlash c := by
      have outside := List.head?_dropWhile_not inside before
      rw [after] at outside
      simpa [inside, here c List.mem_cons_self] using outside
    have plain' : ∀ d ∈ later ++ ['/'], d ≠ '?' ∧ d ≠ '#' := by
      intro d hd
      rcases List.mem_append.mp hd with member | member
      · exact here d (List.mem_cons_of_mem _ member)
      · cases List.mem_singleton.mp member
        decide
    refine ⟨(splitWhere isSlash later).foldl walk [], fun path url h => ?_⟩
    obtain ⟨u, rfl⟩ := authority?_follow h
    have rest : (before ++ '/' :: path).dropWhile inside = c :: (later ++ '/' :: path) := by
      rw [List.dropWhile_append, after]
      rfl
    rw [rest]
    dsimp only
    rw [if_pos slash, follow, List.append_cons later '/' path, pathAndQuery_append plain']
    dsimp only
    rw [List.append_assoc, List.singleton_append, splitWhere_append (by decide),
      resolve_append (splitWhere_ne_nil _)]

/-- Below one base, all paths are followed from one place. -/
theorem parse?_append {text : String} {base : Url} (address : parse? none text = some base)
    (plain : ∀ c ∈ text.toList, c ≠ '?' ∧ c ≠ '#') : ∃ front : List String,
      ∀ (path : List Char), (∀ c ∈ path, isControlOrBlank c = false) → ∀ (url : Url),
        parse? none (text ++ String.ofList ('/' :: path)) = some url →
          url.path = resolve front (splitWhere isSlash (pathAndQuery path).1) := by
  rw [parse?_none] at address
  cases named : scheme? (trim text.toList) with
  | none => rw [named] at address; cases address
  | some parts =>
    obtain ⟨scheme, rest⟩ := parts
    rw [named] at address
    dsimp only at address
    obtain ⟨inside, goesOn⟩ := scheme?_append named
    have some_ : trim text.toList ≠ [] := by
      intro none
      rw [none] at named
      cases named
    obtain ⟨blanks, between, trimmed⟩ := trim_append some_
    have place : rest.dropWhile isSlash ≠ [] := by
      intro none
      rw [none, authority?_nil] at address
      split at address <;> cases address
    have before : ∀ c ∈ rest.dropWhile isSlash ++ blanks, c ≠ '?' ∧ c ≠ '#' := by
      intro c hc
      rcases List.mem_append.mp hc with member | member
      · exact plain c (mem_of_mem_trim (inside c ((List.dropWhile_sublist _).subset member)))
      · exact plain c (between c member)
    obtain ⟨front, followed⟩ := authority?_append (scheme = "https") before
    refine ⟨front, fun path clean url h => followed path url ?_⟩
    have solid : ∀ c ∈ '/' :: path, isControlOrBlank c = false :=
      List.forall_mem_cons.mpr ⟨by decide, clean⟩
    have slashes : (rest ++ (blanks ++ '/' :: path)).dropWhile isSlash =
        rest.dropWhile isSlash ++ blanks ++ '/' :: path := by
      rw [List.dropWhile_append, if_neg (by simpa using place), List.append_assoc]
    rw [parse?_none, String.toList_append, String.toList_ofList,
      trimmed _ (List.cons_ne_nil _ _) solid, goesOn] at h
    dsimp only at h
    split at h
    · cases h
    · rw [← slashes]
      exact h

end Url

namespace Http

open Percent Url

variable {front : List String} {realm id : String}

/-! ### Components -/

/-- Segments that are no names. -/
def IsDots (s : String) : Prop := s = "." ∨ s = ".."

/-- The segments of the path of a component. -/
def componentParts (realm id : String) : Parts := ⟨["admin", "realms", realm, "components", id], []⟩

theorem toList_componentPath :
    (componentPath realm id).toList = '/' :: (componentParts realm id).text := by
  have written := Target.toList_text (.component realm id)
  rw [Target.text] at written
  rw [written]
  simp [Target.parts, Parts.text, Parts.pathText, componentParts, encode, encodeWhere,
    List.intercalate_cons_cons]

theorem not_blank_of_mem_text {c : Char} (h : c ∈ (componentParts realm id).text) :
    isControlOrBlank c = false := by
  have path : (componentParts realm id).text = (componentParts realm id).pathText :=
    List.append_nil _
  rw [path] at h
  rcases Parts.mem_intercalate h with rfl | ⟨part, member, hc⟩
  · decide
  · obtain ⟨s, -, rfl⟩ := List.mem_map.mp member
    rcases mem_encode hc with unreserved | rfl
    · have := unreserved_bounds unreserved
      exact decide_eq_false (by omega)
    · decide

/-- Where the path of a component leads from a place. -/
def resolved (front : List String) (realm id : String) : List String :=
  resolve front (splitWhere isSlash (pathAndQuery (componentParts realm id).text).1)

theorem walk_word {word : String} (h : word ∈ Target.words) :
    walk front (encode word).toList = front ++ [word] := by
  have names : ∀ word ∈ Target.words, word ≠ ".." ∧ word ≠ "." := by decide
  obtain ⟨above, here⟩ := names word h
  rw [walk_encode, if_neg above, if_neg here, Target.encode_word word h]

/-- The path of a component goes through the realm, which may lead elsewhere, and ends at the id. -/
theorem resolved_eq : resolved front realm id =
    resolve (walk (front ++ ["admin", "realms"]) (encode realm).toList ++ ["components"])
      [(encode id).toList] := by
  have segments : splitWhere isSlash (componentParts realm id).pathText =
      ["admin", "realms", realm, "components", id].map fun s => (encode s).toList := by
    refine splitWhere_intercalate (by decide) (by simp [componentParts]) fun part member c hc => ?_
    obtain ⟨s, -, rfl⟩ := List.mem_map.mp member
    simp only [isSlash, Bool.or_eq_false_iff, decide_eq_false_iff_not]
    exact ⟨Parts.ne_of_mem_encode hc (by decide) (by decide),
      Parts.ne_of_mem_encode hc (by decide) (by decide)⟩
  rw [resolved, Parts.pathAndQuery_text, segments]
  simp only [List.map_cons, List.map_nil]
  rw [resolve_cons (by simp), walk_word (by decide), resolve_cons (by simp),
    walk_word (by decide), resolve_cons (by simp), resolve_cons (by simp),
    walk_word (by decide), List.append_assoc]
  rfl

/-- Without dot segments, the path of a component leads to its encoded id. -/
theorem resolved_of_names (names : ¬IsDots realm ∧ ¬IsDots id) : resolved front realm id =
    front ++ ["admin", "realms", encode realm, "components", encode id] := by
  obtain ⟨⟨realmHere, realmAbove⟩, idHere, idAbove⟩ := names.imp not_or.mp not_or.mp
  rw [resolved_eq, walk_encode, resolve_encode, if_neg realmAbove, if_neg realmHere,
    if_neg idAbove, if_neg idHere]
  simp

/-- The path of a component leads to a segment below the components of its realm just if neither the
realm nor the id is a dot segment and the id is not empty. -/
theorem resolved_inside_iff : (∃ segment, segment ≠ "" ∧ resolved front realm id =
      front ++ ["admin", "realms", encode realm, "components", segment]) ↔
    ¬IsDots realm ∧ ¬IsDots id ∧ id ≠ "" := by
  constructor
  · rintro ⟨segment, some_, same⟩
    have path := same
    rw [resolved_eq, walk_encode, resolve_encode] at path
    have length := congrArg List.length path
    -- A dot segment makes the path too short, or leaves an empty segment at its end.
    have realmName : ¬IsDots realm := by
      rintro (rfl | rfl)
      · rw [if_neg (show ¬("." = "..") by decide), if_pos rfl] at length
        split_ifs at length <;> simp at length
      · rw [if_pos rfl] at length
        split_ifs at length <;> simp at length
    have idName : ¬IsDots id := by
      obtain ⟨realmHere, realmAbove⟩ := not_or.mp realmName
      rw [if_neg realmAbove, if_neg realmHere] at path length
      rintro (rfl | rfl)
      · rw [if_neg (by decide), if_pos rfl] at path
        exact some_ (by simpa using path.symm)
      · rw [if_pos rfl] at length
        simp at length
    refine ⟨realmName, idName, ?_⟩
    rintro rfl
    have blank : encode "" = "" := by decide
    rw [resolved_of_names ⟨realmName, idName⟩, blank] at same
    exact some_ (by simpa using same.symm)
  · rintro ⟨realmName, idName, some_⟩
    refine ⟨encode id, fun none => ?_, resolved_of_names ⟨realmName, idName⟩⟩
    exact encode_ne_empty some_ (by rw [none]; rfl)

/-- A request for a component stays below the components of its realm just if neither the realm nor
the id is a dot segment and the id is not empty, and then it asks for the component of this id. -/
theorem stays_inside_iff {c : Client} {base : Url} (address : parse? none c.baseUrl = some base)
    (plain : ∀ ch ∈ c.baseUrl.toList, ch ≠ '?' ∧ ch ≠ '#') : ∃ front : List String,
      ∀ call method realm id body, asks? call = some (method, .component realm id, body) →
        ∀ request ∈ requests (c.answer call).run [],
          ((∃ segment, segment ≠ "" ∧ request.url.path =
              front ++ ["admin", "realms", encode realm, "components", segment]) ↔
            ¬IsDots realm ∧ ¬IsDots id ∧ id ≠ "") ∧
          (¬IsDots realm ∧ ¬IsDots id → request.url.path =
            front ++ ["admin", "realms", encode realm, "components", encode id]) := by
  obtain ⟨front, followed⟩ := parse?_append address plain
  refine ⟨front, fun call method realm id body asked request member => ?_⟩
  rw [(starts_answer c call).requests, Client.opening?, asked] at member
  have made : c.request? method (componentPath realm id) body = some request :=
    Option.mem_toList.mp member
  obtain ⟨url, parsed, made⟩ := Option.bind_eq_some_iff.mp made
  have place : request.url = url := by
    split at made
    · cases made
      rfl
    · cases made
  rw [← String.ofList_toList (s := componentPath realm id), toList_componentPath] at parsed
  have path : url.path = resolved front realm id :=
    followed _ (fun ch => not_blank_of_mem_text) url parsed
  rw [place, path]
  exact ⟨resolved_inside_iff, resolved_of_names⟩

namespace Sample

set_option maxRecDepth 4000 in
theorem nearby_address : (parse? none nearby.baseUrl).isSome := by
  unfold parse?
  cbv

set_option maxRecDepth 4000 in
theorem mail_deletion : (nearby.request? .delete (componentPath "master" "mail") none).isSome := by
  unfold Client.request? Url.parse? componentPath componentsPath Percent.encode
  simp only [String.toList_append, String.toList_ofList]
  cbv

set_option maxRecDepth 4000 in
theorem parent_deletion : (nearby.request? .delete (componentPath "master" "..") none).map
    (·.url.target) = some "/admin/realms/master/" := by
  unfold Client.request? Url.parse? componentPath componentsPath Percent.encode
  simp only [String.toList_append, String.toList_ofList]
  cbv

end Sample

open Http.Sample in
theorem mail_deleted_inside : ∃ base front request, parse? none nearby.baseUrl = some base ∧
    (∀ ch ∈ nearby.baseUrl.toList, ch ≠ '?' ∧ ch ≠ '#') ∧
    requests (nearby.answer (.delete "mail" "master")).run [] = [request] ∧
    request.url.path = front ++ ["admin", "realms", "master", "components", "mail"] := by
  obtain ⟨base, address⟩ := Option.isSome_iff_exists.mp nearby_address
  obtain ⟨request, made⟩ := Option.isSome_iff_exists.mp mail_deletion
  have plain : ∀ ch ∈ nearby.baseUrl.toList, ch ≠ '?' ∧ ch ≠ '#' := by
    have all : nearby.baseUrl.toList.all (fun ch => decide (ch ≠ '?' ∧ ch ≠ '#')) := by decide
    exact fun ch hch => of_decide_eq_true (List.all_eq_true.mp all ch hch)
  obtain ⟨front, inside⟩ := stays_inside_iff address plain
  have sent : requests (nearby.answer (.delete "mail" "master")).run [] = [request] := by
    rw [(starts_answer nearby (.delete "mail" "master")).requests]
    exact congrArg Option.toList made
  have path := (inside (.delete "mail" "master") .delete "master" "mail" none rfl request
    (sent ▸ List.mem_singleton_self _)).2 (by unfold IsDots; decide)
  have words : encode "master" = "master" ∧ encode "mail" = "mail" := by decide
  rw [words.1, words.2] at path
  exact ⟨base, front, request, address, plain, sent, path⟩

open Http.Sample in
/-- A deletion of a component that is named by two dots, as a declaration may name one, is a
deletion of the realm. -/
theorem parent_deleted_instead :
    ({ id := some "..", state := .absent } : Declaration).validate = .ok () ∧
    (requests (nearby.answer (.delete ".." "master")).run []).map
      (fun request => (request.method, request.url.target)) =
        [(.delete, "/admin/realms/master/")] := by
  obtain ⟨request, made, target⟩ := Option.map_eq_some_iff.mp parent_deletion
  have method : request.method = .delete := by
    obtain ⟨url, -, made⟩ := Option.bind_eq_some_iff.mp made
    split at made <;> cases made
    rfl
  refine ⟨rfl, ?_⟩
  rw [(starts_answer nearby (.delete ".." "master")).requests]
  have sent : nearby.opening? (.delete ".." "master") = some request := made
  rw [sent, Option.toList_some, List.map_singleton, method, target]

end Http

end UserFederation
