import UserFederation.Component.Json

/-! Records in documents. A record is written as a map from field names, in which other keys mean
nothing, or as a sequence of its fields in order. -/

namespace UserFederation

/-- How a notation writes records and words. -/
structure RecordRules where
  /-- What is written for nothing. -/
  isNothing : Document → Bool
  /-- Whether a sequence may have more items than the record has fields. -/
  allowsSurplus : Bool

/-- In JSON, `null` is written for nothing, and there is no surplus. -/
def Json.recordRules : RecordRules where
  isNothing d := match d with
    | .null => true
    | _ => false
  allowsSurplus := false

namespace Document

/-- Gives the parts of a record of a number of fields: the part at a position or under one of some
names, which may be missing. A field given twice is refused. -/
def record? (rules : RecordRules) (width : Nat) :
    Document → Option (Nat → List String → Option (Option Document))
  | .seq items =>
    if items.length ≤ width ∨ rules.allowsSurplus then some fun i _ => some items[i]? else none
  | .map entries => some fun _ names =>
    match entries.filter (names.contains ·.1) with
    | [] => some none
    | [e] => some (some e.2)
    | _ => none
  | _ => none

/-- A part that has a default but may not be `null`. -/
def withDefault? {α : Type} (default : α) (read : Document → Option α) :
    Option Document → Option α
  | none => some default
  | some d => read d

/-- A truth value. -/
def bool? : Document → Option Bool
  | .bool b => some b
  | _ => none

/-- One of some words. It may also be written as a map from the word to what is written for
nothing. -/
def word? {α : Type} (rules : RecordRules) (words : List (String × α)) : Document → Option α
  | .text s => words.lookup s
  | .map [(s, d)] => if rules.isNothing d then words.lookup s else none
  | _ => none

end Document

end UserFederation
