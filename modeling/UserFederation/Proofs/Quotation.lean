import UserFederation.Toml.Printer
import UserFederation.Toml.Reader

/-! TOML strings are read back. A string that is written in the quotes that fit it is read to its
end, whatever follows but a quote (`string?_quote`). -/

namespace UserFederation.Toml

variable {c : Char} {cs rest : List Char}

theorem isPrintable_eq (c : Char) : isPrintable c = !isControl c := by
  unfold isPrintable isControl
  by_cases tab : c = '\t'
  · subst tab
    decide
  · by_cases h : c.toNat < 0x20
    · have visible : ¬0x20 ≤ c.toNat := Nat.not_le_of_lt h
      simp [tab, h, visible]
    · simp [tab, h, Nat.le_of_not_lt h]

theorem isControl_lt (h : isControl c) : c.toNat < 0x80 := by
  simp only [isControl, Bool.or_eq_true, Bool.and_eq_true, decide_eq_true_eq] at h
  omega

/-! ### Double quotes -/

theorem codePoint?_control : ∀ n < 0x80,
    codePoint? ['0', '0', Text.hexDigit true (n / 16), Text.hexDigit true (n % 16)] =
      some (Char.ofNat n) := by decide

theorem codePoint?_of_isControl (control : isControl c) :
    codePoint? ['0', '0', Text.hexDigit true (c.toNat / 16), Text.hexDigit true (c.toNat % 16)] =
      some c := by
  rw [codePoint?_control c.toNat (isControl_lt control), Char.ofNat_toNat]

theorem basic?_escape (c : Char) (rest : List Char) :
    basic? (escape false c ++ rest) = push c (basic? rest) := by
  unfold escape
  split
  case h_8 =>
    split
    · rename_i control
      simp only [List.cons_append, List.nil_append, basic?, codePoint?_of_isControl control]
      rfl
    · rename_i visible
      rw [List.singleton_append, basic?]
      · rw [if_pos ⟨by simp [isPrintable_eq, visible], by assumption⟩]
      all_goals simp_all
  all_goals rfl

theorem multilineBasic?_escape (c : Char) (rest : List Char) :
    multilineBasic? false (escape true c ++ rest) = push c (multilineBasic? false rest) := by
  unfold escape
  split
  case h_8 =>
    split
    · rename_i control
      simp only [List.cons_append, List.nil_append, multilineBasic?,
        codePoint?_of_isControl control]
      rfl
    · rename_i visible
      rw [List.singleton_append, multilineBasic?]
      · rw [if_neg (by simp), if_pos ⟨by simp [isPrintable_eq, visible], by assumption⟩]
      all_goals simp_all
  all_goals rfl

/-- A reader that undoes the spelling of each character undoes the spelling of all. -/
theorem read_flatMap {read : Reader (List Char)} {spell : Char → List Char} {closing : List Char}
    (step : ∀ c more, read (spell c ++ more) = push c (read more))
    (closed : read closing = some ([], rest)) :
    read (cs.flatMap spell ++ closing) = some (cs, rest) := by
  induction cs with
  | nil => exact closed
  | cons c cs ih =>
    rw [List.flatMap_cons, List.append_assoc, step, ih]
    rfl

/-! ### Single quotes -/

theorem literal?_closed (plain : ∀ c ∈ cs, c ≠ '\'' ∧ isPrintable c) :
    literal? (cs ++ '\'' :: rest) = some (cs, rest) := by
  induction cs with
  | nil => rfl
  | cons c cs ih =>
    obtain ⟨apart, printable⟩ := plain c List.mem_cons_self
    rw [List.cons_append, literal?, if_pos printable,
      ih fun d hd => plain d (List.mem_cons_of_mem _ hd)]
    · rfl
    · exact apart

theorem hasThreeQuotes_of_tail (h : hasThreeQuotes cs) : hasThreeQuotes (c :: cs) := by
  unfold hasThreeQuotes
  split
  · rfl
  · simp_all
  · simp_all

theorem multilineLiteral?_closed (plain : ∀ c ∈ cs, isPrintable c ∨ c = '\n')
    (few : ¬hasThreeQuotes cs) (last : cs.getLast? ≠ some '\'') (after : rest.head? ≠ some '\'') :
    multilineLiteral? (cs ++ '\'' :: '\'' :: '\'' :: rest) = some (cs, rest) := by
  induction cs with
  | nil =>
    rw [List.nil_append, multilineLiteral?]
    all_goals
      rintro r rfl
      simp at after
  | cons c cs ih =>
    have last' : cs.getLast? ≠ some '\'' := by
      cases cs with
      | nil => nofun
      | cons d cs => rwa [List.getLast?_cons_cons] at last
    have ih := ih (fun d hd => plain d (List.mem_cons_of_mem _ hd))
      (fun h => few (hasThreeQuotes_of_tail h)) last'
    -- A quote in the text is not the first of three, even with those that close the text.
    have apart : ∀ more, c = '\'' → cs ++ '\'' :: '\'' :: '\'' :: rest ≠ '\'' :: '\'' :: more := by
      rintro more rfl same
      rcases cs with _ | ⟨d, _ | ⟨e, cs⟩⟩
      · exact last rfl
      · cases same
        exact last' rfl
      · cases same
        exact few rfl
    rcases plain c List.mem_cons_self with printable | rfl
    · rw [List.cons_append, multilineLiteral?, if_pos printable, ih]
      · rfl
      · exact fun _ => apart _
      · exact fun _ => apart _
      · exact fun _ => apart _
      · rintro rfl
        contradiction
      · rintro r rfl
        contradiction
    · rw [List.cons_append, multilineLiteral?, ih]
      rfl

/-! ### Strings -/

theorem string?_basic {text : List Char} (read : basic? cs = some (text, rest))
    (after : rest.head? ≠ some '"') : string? ('"' :: cs) = some (String.ofList text, rest) := by
  rw [string?, read]
  · rfl
  · rintro more rfl
    cases read
    exact after rfl

theorem string?_literal {text : List Char} (read : literal? cs = some (text, rest))
    (after : rest.head? ≠ some '\'') : string? ('\'' :: cs) = some (String.ofList text, rest) := by
  rw [string?, read]
  · rfl
  · rintro more rfl
    cases read
    exact after rfl

theorem string?_multilineBasic {text : List Char}
    (read : multilineBasic? false cs = some (text, rest)) :
    string? ("\"\"\"\n".toList ++ cs) = some (String.ofList text, rest) := by
  have opening : "\"\"\"\n".toList = ['"', '"', '"', '\n'] := by decide
  rw [opening]
  exact congrArg (Option.map _) read

theorem string?_multilineLiteral {text : List Char}
    (read : multilineLiteral? cs = some (text, rest)) :
    string? ("'''\n".toList ++ cs) = some (String.ofList text, rest) := by
  have opening : "'''\n".toList = ['\'', '\'', '\'', '\n'] := by decide
  rw [opening]
  exact congrArg (Option.map _) read

theorem string?_tripleLiteral {text : List Char} (head : ∀ c ∈ cs.head?, isPrintable c)
    (read : multilineLiteral? cs = some (text, rest)) :
    string? ("'''".toList ++ cs) = some (String.ofList text, rest) := by
  have opening : "'''".toList = ['\'', '\'', '\''] := by decide
  have kept : skipFirstNewline cs = cs := by
    unfold skipFirstNewline newline?
    split
    · exact absurd (head _ rfl) (by decide)
    · exact absurd (head _ rfl) (by decide)
    · rfl
  rw [opening]
  change (multilineLiteral? (skipFirstNewline cs)).map _ = _
  rw [kept, read]
  rfl

theorem string?_quote_of_isLiteral {s : String} (literal : isLiteral s.toList)
    (after : rest.head? ≠ some '\'') : string? ((quote s).toList ++ rest) = some (s, rest) := by
  have h := literal
  simp only [isLiteral, Bool.and_eq_true, List.all_eq_true, Bool.or_eq_true, ← isPrintable_eq,
    decide_eq_true_eq, Bool.not_eq_true', ← Bool.not_eq_true] at h
  obtain ⟨⟨⟨special, plain⟩, few⟩, last⟩ := h
  have closing : "'''".toList = ['\'', '\'', '\''] := by decide
  have read : multilineLiteral? (s.toList ++ ("'''".toList ++ rest)) = some (s.toList, rest) := by
    rw [closing]
    exact multilineLiteral?_closed plain few last after
  simp only [quote, if_pos literal]
  split
  · simp only [String.toList_append, List.append_assoc]
    rw [string?_multilineLiteral read, String.ofList_toList]
  · rename_i one
    have printable : ∀ c ∈ s.toList, isPrintable c := fun c hc =>
      (plain c hc).resolve_right fun h => one (List.contains_iff_mem.mpr (h ▸ hc))
    split
    · simp only [String.toList_append, List.append_assoc]
      have head : ∀ c ∈ (s.toList ++ ("'''".toList ++ rest)).head?, isPrintable c := by
        rw [closing, List.head?_append]
        cases first : s.toList.head? with
        | none => exact fun c hc => Option.some.inj hc ▸ rfl
        | some d => exact fun c hc => printable c (Option.some.inj hc ▸ List.mem_of_head? first)
      rw [string?_tripleLiteral head read, String.ofList_toList]
    · rename_i free
      have single : "'".toList = ['\''] := by decide
      simp only [String.toList_append, List.append_assoc, single, List.cons_append,
        List.nil_append]
      have read : literal? (s.toList ++ '\'' :: rest) = some (s.toList, rest) :=
        literal?_closed fun c hc =>
          ⟨fun h => free (List.contains_iff_mem.mpr (h ▸ hc)), printable c hc⟩
      rw [string?_literal read after, String.ofList_toList]

/-- A string is read back, whatever follows but a quote. -/
theorem string?_quote (s : String) (single : rest.head? ≠ some '\'')
    (double : rest.head? ≠ some '"') : string? ((quote s).toList ++ rest) = some (s, rest) := by
  by_cases literal : isLiteral s.toList
  · exact string?_quote_of_isLiteral literal single
  simp only [quote, if_neg literal]
  cases s.toList.contains '\n' with
  | true =>
    have closing : "\"\"\"".toList = ['"', '"', '"'] := by decide
    have closed : multilineBasic? false ("\"\"\"".toList ++ rest) = some ([], rest) := by
      rw [closing, List.cons_append, List.cons_append, List.cons_append, List.nil_append,
        multilineBasic?]
      all_goals
        rintro more rfl
        exact double rfl
    simp only [if_true, String.toList_append, String.toList_ofList, List.append_assoc]
    rw [string?_multilineBasic (read_flatMap multilineBasic?_escape closed), String.ofList_toList]
  | false =>
    have quote : "\"".toList = ['"'] := by decide
    have read : basic? (s.toList.flatMap (escape false) ++ '"' :: rest) = some (s.toList, rest) :=
      read_flatMap basic?_escape rfl
    simp only [Bool.false_eq_true, if_false, String.toList_append, String.toList_ofList,
      List.append_assoc, quote, List.cons_append, List.nil_append]
    rw [string?_basic read double, String.ofList_toList]

/-- A quoted string starts with a quote. -/
theorem quote_cons (s : String) (rest : List Char) :
    ∃ q cs, (quote s).toList ++ rest = q :: cs ∧ (q = '"' ∨ q = '\'') := by
  have openings : "\"\"\"\n".toList = ['"', '"', '"', '\n'] ∧ "\"".toList = ['"'] ∧
      "'''\n".toList = ['\'', '\'', '\'', '\n'] ∧ "'''".toList = ['\'', '\'', '\''] ∧
      "'".toList = ['\''] := by decide
  simp only [quote]
  split
  · split
    · simp [openings]
    · split <;> simp [openings]
  · split <;> simp [openings]

theorem value?_quote (depth : Nat) (s : String) (single : rest.head? ≠ some '\'')
    (double : rest.head? ≠ some '"') :
    value? depth ((quote s).toList ++ rest) = some (.text s, rest) := by
  have read := string?_quote s single double
  have scalar : scalar? ((quote s).toList ++ rest) = some (.text s, rest) := by
    obtain ⟨q, cs, h, rfl | rfl⟩ := quote_cons s rest <;> rw [h] at read ⊢
    · exact congrArg (Option.map _) read
    · exact congrArg (Option.map _) read
  rw [← scalar]
  cases depth with
  | zero => rfl
  | succ depth => obtain ⟨q, cs, h, rfl | rfl⟩ := quote_cons s rest <;> rw [h] <;> rfl

/-! ### Lines -/

/-- A word that may stand as a key without quotes. -/
def IsWord (key : String) : Prop := key.toList ≠ [] ∧ key.toList.all isBare

variable {key : String}

theorem IsWord.bare (word : IsWord key) : ∀ c ∈ key.toList, isBare c := List.all_eq_true.mp word.2

/-- No word starts like anything else that may start a line or a part of one. -/
theorem IsWord.first (word : IsWord key) : ∃ c cs, key.toList = c :: cs ∧
    c ∉ [' ', '\t', '\n', '\r', '"', '\'', '#', '['] := by
  obtain ⟨c, cs, h⟩ := List.exists_cons_of_ne_nil word.1
  have others : [' ', '\t', '\n', '\r', '"', '\'', '#', '['].all fun c => !isBare c := by decide
  have bare : isBare c := word.bare c (h ▸ List.mem_cons_self)
  refine ⟨c, cs, h, fun other => ?_⟩
  have odd := List.all_eq_true.mp others c other
  rw [bare] at odd
  cases odd

theorem keyPart?_word (word : IsWord key) (ends : ∀ c ∈ rest.head?, ¬isBare c) :
    keyPart? (key.toList ++ rest) = some (key, rest) := by
  obtain ⟨c, cs, h, first⟩ := word.first
  have taken : (key.toList ++ rest).takeWhile isBare = c :: cs := by
    rw [List.takeWhile_append_of_pos word.bare, ← h]
    cases rest <;> simp_all
  have dropped : (key.toList ++ rest).dropWhile isBare = rest := by
    rw [List.dropWhile_append_of_pos word.bare]
    cases rest <;> simp_all
  rw [keyPart?, taken, dropped]
  · show some (String.ofList (c :: cs), rest) = some (key, rest)
    rw [← h, String.ofList_toList]
  · intro more same
    simp_all
  · intro more same
    simp_all

/-- A word is read as a key of one part. -/
theorem key?_word (word : IsWord key) {d : Char} {after : List Char}
    (next : skipBlank rest = d :: after) (ends : ∀ c ∈ rest.head?, ¬isBare c) (dot : d ≠ '.') :
    key? (key.toList ++ rest) = some (([], key), d :: after) := by
  have kept : skipBlank (key.toList ++ rest) = key.toList ++ rest := by
    obtain ⟨c, cs, h, first⟩ := word.first
    rw [h]
    exact List.dropWhile_cons_of_neg (by simp_all [isBlank])
  have more : moreKey? rest = some ([], d :: after) := by
    rw [moreKey?, next]
    simp [dot]
  rw [key?, kept, keyPart?_word word ends]
  simp only [Option.bind_eq_bind, Option.bind_some, more]
  rfl

theorem pair?_line (word : IsWord key) (value : String) (rest : List Char) (depth : Nat) :
    pair? (value? depth) ((line key value).toList ++ rest) =
      some ((([], key), .text value), '\n' :: rest) := by
  have sign : " = ".toList = [' ', '=', ' '] := by decide
  have newline : "\n".toList = ['\n'] := by decide
  have text : (line key value).toList ++ rest =
      key.toList ++ ' ' :: '=' :: ' ' :: ((quote value).toList ++ '\n' :: rest) := by
    simp [line, sign, newline]
  have start : skipBlank (' ' :: ((quote value).toList ++ '\n' :: rest)) =
      (quote value).toList ++ '\n' :: rest := by
    obtain ⟨q, cs, h, rfl | rfl⟩ := quote_cons value ('\n' :: rest) <;> rw [h] <;> rfl
  have equals : word? ['='] ('=' :: ' ' :: ((quote value).toList ++ '\n' :: rest)) =
      some (' ' :: ((quote value).toList ++ '\n' :: rest)) := rfl
  have read : value? depth ((quote value).toList ++ '\n' :: rest) =
      some (.text value, '\n' :: rest) := value?_quote depth value (by simp) (by simp)
  rw [pair?, text, key?_word word (d := '=') rfl (by simp; decide) (by decide)]
  simp only [Option.bind_eq_bind, Option.bind_some, equals, start, read]
  rfl

/-- Reading a text goes on after a line that starts like a key or a header. -/
theorem lines?_of_line? {s : Reading} {root : Option Entries} {current : List String}
    (first : c ∉ [' ', '\t', '\n', '\r', '"', '\'', '#'])
    (read : line? s (c :: cs) = root.map fun root => (⟨root, current⟩, rest))
    (shorter : rest.length < (c :: cs).length) :
    lines? s (c :: cs) = root.bind fun root => lines? ⟨root, current⟩ rest := by
  have kept : skipBlank (c :: cs) = c :: cs :=
    List.dropWhile_cons_of_neg (by simp_all [isBlank])
  have noComment : skipComment (c :: cs) = c :: cs := by
    unfold skipComment
    split <;> simp_all
  have noBreak : newline? (c :: cs) = none := by
    unfold newline?
    split <;> simp_all
  rw [lines?, kept]
  simp only [noComment, noBreak, reduceCtorEq, if_false, read]
  cases root with
  | none => rfl
  | some root => exact dif_pos shorter

/-- A line that gives a key a string is read. -/
theorem lines?_line (word : IsWord key) (value : String) (rest : List Char) (s : Reading) :
    lines? s ((line key value).toList ++ rest) =
      (s.root.setBelow s.current [] key (.text value)).bind fun root =>
        lines? { s with root } rest := by
  obtain ⟨c, cs, h, first⟩ := word.first
  obtain ⟨more, text⟩ : ∃ more, (line key value).toList ++ rest = c :: more := by
    simp [line, h]
  have shorter : rest.length < (c :: more).length := by
    rw [← text]
    simp [line]
    omega
  have pair := pair?_line word value rest maxDepth
  rw [text] at pair ⊢
  refine lines?_of_line? (by simp_all) ?_ shorter
  rw [line?, pair]
  · simp only [Option.bind_eq_bind, Option.bind_some]
    cases s.root.setBelow s.current [] key (.text value) <;> rfl
  · intro more same
    simp_all
  · intro more same
    simp_all

/-- A header is read. -/
theorem lines?_header (word : IsWord key) (rest : List Char) (s : Reading) :
    lines? s ('[' :: (key.toList ++ ']' :: '\n' :: rest)) =
      (s.root.openTable [] key).bind fun root => lines? ⟨root, [key]⟩ rest := by
  have named : key? (key.toList ++ ']' :: '\n' :: rest) = some (([], key), ']' :: '\n' :: rest) :=
    key?_word word rfl (by simp; decide) (by decide)
  refine lines?_of_line? (by decide) ?_ (by simp; omega)
  obtain ⟨c, cs, h, first⟩ := word.first
  rw [h] at named ⊢
  rw [line?, named]
  · simp only [Option.bind_eq_bind, Option.bind_some]
    cases s.root.openTable [] key <;> rfl
  · intro more same
    simp_all

theorem lines?_nil (s : Reading) : lines? s [] = some s := by
  rw [lines?]
  rfl

theorem lines?_newline (rest : List Char) (s : Reading) :
    lines? s ('\n' :: rest) = lines? s rest := by
  rw [lines?]
  simp [skipBlank, isBlank, skipComment, newline?]

end UserFederation.Toml
