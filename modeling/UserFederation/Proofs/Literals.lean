import UserFederation.Json.Reader
import UserFederation.Proofs.Spelling

/-! Integers in the configs of declarations. An integer of 64 bits with sign is sent in its decimal
form; any other one, and a zero with a minus sign, is a float by the time it is sent, and no text of
a float is the decimal form of an integer (`float_text_ne`). So an integer is sent as it is written
just if it has 64 bits and no needless sign (`integers_sent_iff`). -/

namespace UserFederation

/-- An integer by its sign and its magnitude. -/
def signed (negative : Bool) (n : Nat) : Int := if negative then -n else n

/-! ### Reading -/

namespace Json

namespace NumberText

/-- The decimal digits of a number. -/
def decimal (n : Nat) : List Nat := (Nat.toDigits 10 n).map fun c => c.toNat - '0'.toNat

/-- The decimal form of an integer, taken apart. -/
def integer (negative : Bool) (n : Nat) : NumberText := ⟨negative, decimal n, [], none⟩

/-- The value of digits that follow others. -/
def value (start : Nat) (digits : List Nat) : Nat := digits.foldl (fun e d => e * 10 + d) start

variable {negative : Bool} {n start : Nat} {digits : List Nat}

theorem value_decimal : value 0 (decimal n) = n := by
  rw [value, decimal, List.foldl_map]
  simp only [Nat.mul_comm _ 10]
  exact Nat.ofDigitChars_toDigits (by decide) (by decide)

theorem le_value : start ≤ value start digits := by
  induction digits generalizing start with
  | nil => exact Nat.le_refl _
  | cons d digits ih =>
    have first : start ≤ start * 10 + d := by omega
    exact Nat.le_trans first ih

/-- Digits fit a significand of 64 bits just if their value does. -/
theorem gather_of_lt (fits : value start digits < Nat.pow 2 64) :
    gather start digits = (value start digits, []) := by
  induction digits generalizing start with
  | nil => rfl
  | cons d digits ih =>
    have first : start * 10 + d < Nat.pow 2 64 := Nat.lt_of_le_of_lt le_value fits
    rw [gather, if_pos first, ih fits]
    rfl

theorem gather_of_le (h : start < Nat.pow 2 64) (large : Nat.pow 2 64 ≤ value start digits) :
    (gather start digits).2 ≠ [] := by
  induction digits generalizing start with
  | nil => exact absurd h (Nat.not_lt.mpr large)
  | cons d digits ih =>
    rw [gather]
    split
    · rename_i first
      exact ih first large
    · exact List.cons_ne_nil _ _

theorem document_integer_of_lt (fits : n < Nat.pow 2 64) : (integer negative n).document =
    if !negative then .int n
    else if n = 0 || Nat.pow 2 63 < n then .float (Double.ofInt n).neg
    else .int (-n) := by
  have gathered : gather 0 (integer negative n).whole = (n, []) := by
    rw [integer, gather_of_lt (value_decimal.symm ▸ fits), value_decimal]
  rw [document, gathered]
  rfl

theorem document_integer_of_le (negative : Bool) (large : Nat.pow 2 64 ≤ n) :
    (∃ x, (integer negative n).document = .float x) ∨
      (integer negative n).document = .unreadable := by
  have dropped : (gather 0 (integer negative n).whole).2 ≠ [] :=
    gather_of_le (by decide) (value_decimal.symm ▸ large)
  obtain ⟨d, rest, h⟩ := List.exists_cons_of_ne_nil dropped
  have gathered : gather 0 (integer negative n).whole =
      ((gather 0 (integer negative n).whole).1, d :: rest) := Prod.ext rfl h
  rw [document, gathered]
  cases (integer negative n).magnitude? with
  | none => exact .inr rfl
  | some x => exact .inl ⟨_, rfl⟩

theorem document_integer_ne_null : (integer negative n).document ≠ .null := by
  by_cases fits : n < Nat.pow 2 64
  · rw [document_integer_of_lt fits]
    split
    · nofun
    · split <;> nofun
  · obtain ⟨x, h⟩ | h := document_integer_of_le negative (Nat.le_of_not_lt fits)
    · simp [h]
    · simp [h]

end NumberText

namespace Token

/-- No number goes on with a text. -/
def EndsNumber (rest : List Char) : Prop :=
  ∀ c, rest.head? = some c → ¬c.isDigit ∧ c ≠ '.' ∧ c ≠ 'e' ∧ c ≠ 'E'

variable {negative : Bool} {n : Nat} {rest : List Char}

theorem digits_toDigits (ends : EndsNumber rest) :
    digits (Nat.toDigits 10 n ++ rest) = (NumberText.decimal n, rest) := by
  have all : ∀ c ∈ Nat.toDigits 10 n, c.isDigit :=
    fun c hc => Nat.isDigit_of_mem_toDigits (by decide) (by decide) hc
  have none : rest.takeWhile Char.isDigit = [] ∧ rest.dropWhile Char.isDigit = rest := by
    cases rest with
    | nil => exact ⟨rfl, rfl⟩
    | cons c rest => simp [(ends c rfl).1]
  rw [digits, List.takeWhile_append_of_pos all, List.dropWhile_append_of_pos all, none.1, none.2,
    List.append_nil, NumberText.decimal]

/-- The decimal form of a positive number does not start with a zero. -/
theorem first_digit_ne_zero {d : Nat} {ds : List Nat} (positive : 0 < n)
    (h : NumberText.decimal n = d :: ds) : d ≠ 0 := by
  induction n using Nat.strongRecOn generalizing ds with
  | ind n ih =>
    rw [NumberText.decimal, Nat.toDigits_eq_if (by decide)] at h
    split at h
    · rename_i single
      cases h
      have digit : ∀ n < 10, 0 < n → n.digitChar.toNat - '0'.toNat ≠ 0 := by decide
      exact digit n single positive
    · rename_i several
      obtain ⟨c, cs, more⟩ :=
        List.exists_cons_of_ne_nil (Nat.toDigits_ne_nil (n := n / 10) (b := 10))
      rw [more] at h
      cases h
      exact ih (n / 10) (by omega) (by omega) (congrArg _ more)

theorem fraction?_of_ends (ends : EndsNumber rest) :
    fraction? rest = some ([], ⟨rest, Nat.le_refl _⟩) := by
  unfold fraction?
  split
  · exact absurd rfl (ends '.' rfl).2.1
  · rfl

theorem exponent?_of_ends (ends : EndsNumber rest) :
    exponent? rest = some (none, ⟨rest, Nat.le_refl _⟩) := by
  cases rest with
  | nil => rfl
  | cons c rest =>
    obtain ⟨-, -, lower, upper⟩ := ends c rfl
    exact if_neg (not_or.mpr ⟨lower, upper⟩)

/-- The decimal form of a number is read to its end. -/
theorem number?_integer (negative : Bool) (n : Nat) (ends : EndsNumber rest) :
    (number? negative (Nat.toDigits 10 n ++ rest)).map (fun r => (r.1, r.2.1)) =
      some ((NumberText.integer negative n).document, rest) := by
  unfold number?
  split
  · rename_i after h
    rw [digits_toDigits ends] at h
    exact absurd (List.map_eq_nil_iff.mp (Prod.mk.inj h).1) Nat.toDigits_ne_nil
  · rename_i d ds after h
    rw [digits_toDigits ends] at h
    obtain ⟨whole, rfl⟩ := Prod.mk.inj h
    have lead : ¬(d = 0 ∧ ds ≠ []) := by
      rintro ⟨rfl, more⟩
      cases n.eq_zero_or_pos with
      | inl zero =>
        subst zero
        cases whole
        exact more rfl
      | inr positive => exact first_digit_ne_zero positive whole rfl
    simp only [if_neg lead, fraction?_of_ends ends, exponent?_of_ends ends, Option.bind_eq_bind,
      Option.bind_some, NumberText.integer, whole]
    rfl

/-- A text that starts with a digit starts with a number. -/
theorem next?_of_digit {c : Char} {cs : List Char} (first : cs.head? = some c) (digit : c.isDigit) :
    next? cs = (number? false cs).map fun r => (.scalar r.1, r.2) := by
  obtain ⟨rest, rfl⟩ := List.head?_eq_some_iff.mp first
  rw [next?]
  · cases number? false (c :: rest) <;> rfl
  all_goals
    rintro rfl
    revert digit
    decide

/-- The decimal form of an integer is one token. -/
theorem next?_integer (negative : Bool) (n : Nat) (ends : EndsNumber rest) :
    (next? ((if negative then ['-'] else []) ++ (Nat.toDigits 10 n ++ rest))).map
      (fun r => (r.1, r.2.1)) =
      some (.scalar (NumberText.integer negative n).document, rest) := by
  obtain ⟨r, hr, same⟩ := Option.map_eq_some_iff.mp (number?_integer negative n ends)
  obtain ⟨document, left⟩ := Prod.mk.inj same
  cases negative with
  | true =>
    change ((number? true (Nat.toDigits 10 n ++ rest)).bind _).map _ = _
    rw [hr]
    exact congrArg₂ (fun d rest => some (scalar d, rest)) document left
  | false =>
    obtain ⟨c, cs, first⟩ := List.exists_cons_of_ne_nil (Nat.toDigits_ne_nil (n := n) (b := 10))
    have digit : c.isDigit := Nat.isDigit_of_mem_toDigits (by decide) (by decide)
      (first ▸ List.mem_cons_self)
    have start : (Nat.toDigits 10 n ++ rest).head? = some c := by rw [first]; rfl
    change (next? (Nat.toDigits 10 n ++ rest)).map _ = _
    rw [next?_of_digit start digit, hr]
    exact congrArg₂ (fun d rest => some (scalar d, rest)) document left

/-- A token at the start of a text is followed by the tokens of the rest. -/
theorem scan?_of_next? {cs : List Char} {t : Token}
    (solid : ∀ c, cs.head? = some c → isBlank c = false)
    (h : (next? cs).map (fun r => (r.1, r.2.1)) = some (t, rest)) :
    scan? cs = (scan? rest).map (t :: ·) := by
  obtain ⟨⟨t', r⟩, hr, same⟩ := Option.map_eq_some_iff.mp h
  cases same
  cases cs with
  | nil => cases hr
  | cons c cs =>
    rw [scan?, solid c rfl, hr]
    rfl

end Token

/-- The decimal form of an integer, which may have a needless sign. -/
def literal (negative : Bool) (n : Nat) : String := (if negative then "-" else "") ++ toString n

/-- The decimal form of an integer is a JSON text. -/
theorem read?_literal {negative : Bool} {n : Nat} :
    read? (literal negative n) = some (NumberText.integer negative n).document := by
  have chars : (literal negative n).toList =
      (if negative then ['-'] else []) ++ (Nat.toDigits 10 n ++ []) := by
    cases negative <;> simp [literal]
  have solid : ∀ c, (literal negative n).toList.head? = some c → Token.isBlank c = false := by
    intro c first
    have member := List.mem_of_head? first
    rw [chars, List.append_nil, List.mem_append] at member
    rcases member with sign | digit
    · cases negative
      · cases sign
      · cases List.mem_singleton.mp sign
        rfl
    · have digit := Nat.isDigit_of_mem_toDigits (by decide) (by decide) digit
      refine decide_eq_false ?_
      rintro (rfl | rfl | rfl | rfl) <;> exact absurd digit (by decide)
  have token := @Token.next?_integer [] negative n nofun
  rw [← chars] at token
  rw [read?, Token.scan?_of_next? solid token, Token.scan?]
  rfl

end Json

namespace Scalar

open Json

variable {negative : Bool} {n : Nat} {v : Scalar}

theorem isInteger_iff {n : Int} :
    isInteger n ↔ -9223372036854775808 ≤ n ∧ n < 9223372036854775808 := decide_eq_true_iff

/-- An integer of 64 bits without a needless sign is read as it is. -/
theorem read?_integer (fits : isInteger (signed negative n)) (plain : ¬(negative ∧ n = 0)) :
    read? (NumberText.integer negative n).document = some (.integer (signed negative n)) := by
  have bounds := isInteger_iff.mp fits
  cases negative with
  | false =>
    simp only [signed, Bool.false_eq_true, if_false] at bounds
    have short : n < Nat.pow 2 64 := by simp; omega
    rw [NumberText.document_integer_of_lt short]
    exact congrArg some (if_pos fits)
  | true =>
    simp only [signed, if_true] at bounds
    have short : n < Nat.pow 2 64 := by simp; omega
    have least : ¬(decide (n = 0) || decide (Nat.pow 2 63 < n)) := by simp at plain ⊢; omega
    rw [NumberText.document_integer_of_lt short, if_neg (by decide), if_neg least]
    exact congrArg some (if_pos fits)

/-- Every other integer is read as a float, if at all. -/
theorem float_of_read?_integer (h : ¬(isInteger (signed negative n) ∧ ¬(negative ∧ n = 0)))
    (read : read? (NumberText.integer negative n).document = some v) : ∃ x, v = .float x := by
  by_cases short : n < Nat.pow 2 64
  · rw [NumberText.document_integer_of_lt short] at read
    cases negative with
    | false =>
      have long : ¬isInteger (n : Int) := fun fits => h ⟨fits, nofun⟩
      exact ⟨_, (Option.some.inj (read.symm.trans (congrArg some (if_neg long))))⟩
    | true =>
      rw [if_neg (by decide)] at read
      split at read
      · exact ⟨_, (Option.some.inj read).symm⟩
      · rename_i least
        refine absurd ⟨isInteger_iff.mpr ?_, ?_⟩ h
        · simp [signed] at least ⊢
          omega
        · simp at least ⊢
          omega
  · obtain ⟨x, float⟩ | unreadable :=
      NumberText.document_integer_of_le negative (Nat.le_of_not_lt short)
    · rw [float] at read
      exact ⟨x, (Option.some.inj read).symm⟩
    · rw [unreadable] at read
      cases read

/-! ### Texts -/

theorem point_mem_withPoint (digits : List Char) (point : Int) :
    '.' ∈ Decimal.withPoint digits point := by
  unfold Decimal.withPoint
  split
  · simp
  · dsimp only
    split <;> simp

/-- No text of a float is the decimal form of an integer: it has a point or a letter. -/
theorem float_text_ne (x : Double) (n : Int) : floatLayout.write x ≠ toString n := by
  suffices other : ∃ c ∈ (floatLayout.write x).toList, ¬c.isDigit ∧ c ≠ '-' by
    obtain ⟨c, member, symbol, unsigned⟩ := other
    intro same
    rw [same, Int.toString_eq_repr, Int.repr_eq_if] at member
    split at member
    · exact symbol (Nat.isDigit_of_mem_toDigits (by decide) (by decide) (Nat.toList_repr ▸ member))
    · rw [String.toList_append, List.mem_append, Nat.toList_repr] at member
      rcases member with sign | digit
      · exact unsigned (List.mem_singleton.mp sign)
      · exact symbol (Nat.isDigit_of_mem_toDigits (by decide) (by decide) digit)
  unfold Decimal.Layout.write
  cases x.meaning with
  | nan => exact ⟨'N', by decide, by decide⟩
  | infinite minus => exact ⟨'i', by simp [floatLayout], by decide⟩
  | finite minus m q =>
    have body : ∀ cs : List Char, '.' ∈ cs ∨ 'e' ∈ cs →
        ∃ c ∈ ((if minus then "-" else "") ++ String.ofList cs).toList, ¬c.isDigit ∧ c ≠ '-' := by
      intro cs symbol
      rcases symbol with h | h
      · exact ⟨'.', by simp [h], by decide⟩
      · exact ⟨'e', by simp [h], by decide⟩
    refine body _ ?_
    split
    · simp
    · dsimp only
      split
      · exact .inl (point_mem_withPoint _ _)
      · exact .inr (by simp [Decimal.Layout.withExponent])

/-- An integer is sent in its decimal form just if it has 64 bits and no needless sign. -/
theorem encode_integer_iff (read : read? (NumberText.integer negative n).document = some v) :
    v.encode = toString (signed negative n) ↔
      isInteger (signed negative n) ∧ ¬(negative ∧ n = 0) := by
  constructor
  · intro same
    by_contra h
    obtain ⟨x, rfl⟩ := float_of_read?_integer h read
    exact float_text_ne x _ same
  · rintro ⟨fits, plain⟩
    cases read.symm.trans (read?_integer fits plain)
    rfl

end Scalar

/-! ### Configs -/

namespace SortedMap

variable {α β : Type} {l : List (String × α)} {l' : List (String × β)} {R : α → β → Prop}
  {key : String}

/-- Lists of related entries give related maps. -/
theorem rel_get?_ofList (related : List.Forall₂ (fun e e' => e.1 = e'.1 ∧ R e.2 e'.2) l l') :
    Option.Rel R ((ofList l).get? key) ((ofList l').get? key) := by
  induction related with
  | nil => exact .none
  | @cons e e' l l' first _ ih =>
    obtain ⟨same, alike⟩ := first
    have one : Option.Rel R ((ofList [e]).get? key) ((ofList [e']).get? key) := by
      rw [get?_ofList_singleton, get?_ofList_singleton, same]
      split
      · exact .some alike
      · exact .none
    rw [← List.singleton_append, ← @List.singleton_append _ _ l', get?_ofList_append,
      get?_ofList_append]
    generalize (ofList l).get? key = later at ih ⊢
    generalize (ofList l').get? key = later' at ih ⊢
    cases ih with
    | none => exact one
    | some alike => exact .some alike

end SortedMap

open Json

variable {negative : Bool} {n : Nat} {key : String} {settings : List (String × Document)}

namespace DeclaredConfig

variable {config : DeclaredConfig}

/-- What a setting is read as. -/
def ReadAs (d : Document) (value : Option Scalar) : Prop :=
  d = .null ∧ value = none ∨ ∃ v, Scalar.read? d = some v ∧ value = some v

/-- Each setting is read as a value of the config. -/
theorem rel_read? (read : read? (.map settings) = some config) :
    Option.Rel ReadAs ((SortedMap.ofList settings).get? key) (config.get? key) := by
  obtain ⟨entries, hentries, rfl⟩ := Option.map_eq_some_iff.mp read
  refine SortedMap.rel_get?_ofList ((Document.mapM_eq_some_iff.mp hentries).imp ?_)
  rintro ⟨key, d⟩ e he
  split at he
  · cases he
    exact ⟨rfl, .inl ⟨‹_›, rfl⟩⟩
  · obtain ⟨v, hv, rfl⟩ := Option.map_eq_some_iff.mp he
    exact ⟨rfl, .inr ⟨v, hv, rfl⟩⟩

/-- An integer among the settings has one text in the config that is sent. -/
theorem get?_encode_integer (read : read? (.map settings) = some config)
    (given : (SortedMap.ofList settings).get? key = some (NumberText.integer negative n).document) :
    ∃ text, config.encode.get? key = some [text] ∧ (text = toString (signed negative n) ↔
      Scalar.isInteger (signed negative n) ∧ ¬(negative ∧ n = 0)) := by
  have alike := @rel_read? key _ _ read
  rw [given] at alike
  generalize hvalue : config.get? key = found at alike
  cases alike with
  | some alike =>
    obtain ⟨null, -⟩ | ⟨v, hv, rfl⟩ := alike
    · exact absurd null NumberText.document_integer_ne_null
    · refine ⟨v.encode, ?_, Scalar.encode_integer_iff hv⟩
      rw [encode, SortedMap.get?_filterMap, hvalue]
      rfl

end DeclaredConfig

/-- Each setting that is given as an integer has one text in the config of a component, which is its
decimal form just if the integer has 64 bits and no needless sign. -/
def SendsIntegers (settings : List (String × Document)) (c : Component) : Prop :=
  ∀ key negative n d, Json.read? (literal negative n) = some d →
    (SortedMap.ofList settings).get? key = some d →
    ∃ text, c.configList? key = some [text] ∧ (text = toString (signed negative n) ↔
      Scalar.isInteger (signed negative n) ∧ ¬(negative ∧ n = 0))

/-- A record of a number of fields gives a field, by its position or its name, as some part. -/
def Document.Field (doc : Document) (width i : Nat) (name : String) (d : Document) : Prop :=
  ∃ part, doc.record? recordRules width = some part ∧ part i [name] = some (some d)

/-- The settings of a record that is read are sent. -/
theorem sendsIntegers_of_read {part : Option (Option Document)} {config : Option DeclaredConfig}
    {c : Component} (read : part.bind (Document.optional? DeclaredConfig.read?) = some config)
    (given : part = some (some (.map settings)))
    (sent : c.config = config.map DeclaredConfig.encode) : SendsIntegers settings c := by
  subst given
  intro key negative n d hd there
  rw [read?_literal] at hd
  cases hd
  obtain ⟨config, hconfig, rfl⟩ := Option.map_eq_some_iff.mp read
  rw [Component.configList?, sent]
  exact DeclaredConfig.get?_encode_integer hconfig there

theorem MapperDeclaration.sendsIntegers {doc : Document} {m : MapperDeclaration}
    (accepted : read? recordRules doc = some m) (given : doc.Field 6 5 "config" (.map settings)) :
    SendsIntegers settings m.component := by
  obtain ⟨part, record, given⟩ := given
  obtain ⟨_, record', -, -, -, -, -, config⟩ := read?_eq_some_iff.mp accepted
  cases record.symm.trans record'
  exact sendsIntegers_of_read config given rfl

/-- An integer among the settings of an accepted declaration, or of one of its mappers, is sent as
it is written just if it has 64 bits and no needless sign. -/
theorem integers_sent_iff {doc : Document} {d : Declaration}
    (accepted : Declaration.read? recordRules doc = some d) :
    (∀ settings, doc.Field 11 9 "config" (.map settings) → SendsIntegers settings d.component) ∧
    ∀ items, doc.Field 11 10 "mappers" (.seq items) → ∃ cs, d.mapperComponents = some cs ∧
      List.Forall₂ (fun m c => ∀ settings, m.Field 6 5 "config" (.map settings) →
        SendsIntegers settings c) items cs := by
  obtain ⟨part, record, -, -, -, -, -, -, -, -, -, config, mappers⟩ :=
    Declaration.read?_eq_some_iff.mp accepted
  constructor
  · rintro settings ⟨_, record', given⟩
    cases record.symm.trans record'
    exact sendsIntegers_of_read config given rfl
  · rintro items ⟨_, record', given⟩
    cases record.symm.trans record'
    rw [given] at mappers
    obtain ⟨ms, hms, declared⟩ := Option.map_eq_some_iff.mp mappers
    have components : d.mapperComponents = some (ms.map MapperDeclaration.component) := by
      rw [Declaration.mapperComponents, ← declared]
      rfl
    refine ⟨_, components, List.forall₂_map_right_iff.mpr ?_⟩
    refine (Document.mapM_eq_some_iff.mp hms).imp fun m md read settings given => ?_
    exact md.sendsIntegers read given

namespace Sample

/-- Settings with an integer of 64 bits and one beyond. -/
def limits : List (String × Document) :=
  [("limit", (NumberText.integer false 9223372036854775808).document),
    ("priority", (NumberText.integer true 1).document)]

/-- The declaration that is read of these settings. -/
def limited : Declaration where
  name := some "corp"
  config := some (.ofList [("limit", some (.float (Double.ofInt 9223372036854775808))),
    ("priority", some (.integer (-1)))])

theorem limited_sent :
    Declaration.read? recordRules (.map [("name", .text "corp"), ("config", .map limits)]) =
      some limited ∧ SendsIntegers limits limited.component ∧
    limited.component.configList? "priority" = some ["-1"] := by
  have accepted :
      Declaration.read? recordRules (.map [("name", .text "corp"), ("config", .map limits)]) =
        some limited := by decide +kernel
  exact ⟨accepted, (integers_sent_iff accepted).1 limits ⟨_, rfl, rfl⟩, by decide +kernel⟩

/-- The least integer beyond 64 bits with sign is sent with a point and an exponent. -/
theorem limit_sent_with_exponent : ∃ d, Json.read? (literal false 9223372036854775808) = some d ∧
    ∃ declared, Declaration.read? recordRules
      (.map [("name", .text "corp"), ("config", .map [("limit", d)])]) = some declared ∧
    declared.component.configList? "limit" = some ["9.223372036854776e18"] ∧
    "9.223372036854776e18" ≠ toString (9223372036854775808 : Int) := by
  refine ⟨_, read?_literal, _, rfl, ?_, ?_⟩
  · decide +kernel
  · decide +kernel

end Sample

end UserFederation
