import UserFederation.SortedMap
import UserFederation.Decimal.Double

/-! JSON values. Numbers are integers or doubles, never converted into one another. -/

namespace UserFederation

/-- A JSON value. An object is a list of fields; `Json.object` puts them in canonical order. -/
inductive Json
  | null
  | bool (b : Bool)
  | int (n : Int)
  | float (x : Double)
  | str (s : String)
  | arr (items : List Json)
  | obj (fields : List (String × Json))
  deriving Inhabited

namespace Json

mutual

/-- Decides equality of two values. -/
def decEq : (a b : Json) → Decidable (a = b)
  | .null, b => match b with
    | .null => isTrue rfl
    | .bool _ | .int _ | .float _ | .str _ | .arr _ | .obj _ => isFalse nofun
  | .bool x, b => match b with
    | .bool y => decidable_of_iff (x = y) (by simp)
    | .null | .int _ | .float _ | .str _ | .arr _ | .obj _ => isFalse nofun
  | .int x, b => match b with
    | .int y => decidable_of_iff (x = y) (by simp)
    | .null | .bool _ | .float _ | .str _ | .arr _ | .obj _ => isFalse nofun
  | .float x, b => match b with
    | .float y => decidable_of_iff (x = y) (by simp)
    | .null | .bool _ | .int _ | .str _ | .arr _ | .obj _ => isFalse nofun
  | .str x, b => match b with
    | .str y => decidable_of_iff (x = y) (by simp)
    | .null | .bool _ | .int _ | .float _ | .arr _ | .obj _ => isFalse nofun
  | .arr x, b => match b with
    | .arr y => match decEqItems x y with
      | isTrue h => isTrue (h ▸ rfl)
      | isFalse h => isFalse fun e => h (Json.arr.inj e)
    | .null | .bool _ | .int _ | .float _ | .str _ | .obj _ => isFalse nofun
  | .obj x, b => match b with
    | .obj y => match decEqFields x y with
      | isTrue h => isTrue (h ▸ rfl)
      | isFalse h => isFalse fun e => h (Json.obj.inj e)
    | .null | .bool _ | .int _ | .float _ | .str _ | .arr _ => isFalse nofun

/-- Decides equality of two lists of values. -/
def decEqItems : (a b : List Json) → Decidable (a = b)
  | [], b => match b with
    | [] => isTrue rfl
    | _ :: _ => isFalse nofun
  | x :: xs, b => match b with
    | [] => isFalse nofun
    | y :: ys => match decEq x y, decEqItems xs ys with
      | isTrue h, isTrue h' => isTrue (h ▸ h' ▸ rfl)
      | isFalse h, _ => isFalse fun e => h (List.cons.inj e).1
      | _, isFalse h => isFalse fun e => h (List.cons.inj e).2

/-- Decides equality of two lists of fields. -/
def decEqFields : (a b : List (String × Json)) → Decidable (a = b)
  | [], b => match b with
    | [] => isTrue rfl
    | _ :: _ => isFalse nofun
  | (j, x) :: xs, b => match b with
    | [] => isFalse nofun
    | (k, y) :: ys =>
      if hk : j = k then
        match decEq x y, decEqFields xs ys with
        | isTrue h, isTrue h' => isTrue (hk ▸ h ▸ h' ▸ rfl)
        | isFalse h, _ => isFalse fun e => h (Prod.mk.inj (List.cons.inj e).1).2
        | _, isFalse h => isFalse fun e => h (List.cons.inj e).2
      else isFalse fun e => hk (Prod.mk.inj (List.cons.inj e).1).1

end

instance : DecidableEq Json := decEq

/-- The object of some fields, in order of their keys; of two fields of one key the later
counts. -/
def object (fields : List (String × Json)) : Json := .obj (SortedMap.ofList fields).entries

/-- The object of a map's entries. -/
def ofMap (m : SortedMap Json) : Json := .obj m.entries

/-- The empty object. -/
def emptyObject : Json := .obj []

/-- A field of an object. -/
def get? : Json → String → Option Json
  | .obj fields, key => fields.lookup key
  | _, _ => none

/-- The text of a string value. -/
def str? : Json → Option String
  | .str s => some s
  | _ => none

/-- The value of a string that may be absent. -/
def ofOption : Option String → Json
  | some s => .str s
  | none => .null

/-- Replaces the value of each field of an object; any other value stays as it is. -/
def mapFields (f : String → Json → Json) : Json → Json
  | .obj fields => .obj (fields.map fun e => (e.1, f e.1 e.2))
  | x => x

/-- Replaces each item of an array; any other value stays as it is. -/
def mapItems (f : Json → Json) : Json → Json
  | .arr items => .arr (items.map f)
  | x => x

/-- The first item of an array, `null` where there is none; any other value stays as it is. -/
def firstItem : Json → Json
  | .arr items => items.headD .null
  | x => x

/-- The values of an object can be replaced before it is made. -/
theorem mapFields_object (f : String → Json → Json) (fields : List (String × Json)) :
    (object fields).mapFields f = object (fields.map fun e => (e.1, f e.1 e.2)) :=
  congrArg obj (SortedMap.entries_ofList_map f fields).symm

mutual

/-- The value with one representative for the doubles of equal value. Two values are equal as JSON
values when these are the same. -/
def canonical : Json → Json
  | .float x => .float x.canonical
  | .arr items => .arr (canonicalItems items)
  | .obj fields => .obj (canonicalFields fields)
  | .null => .null
  | .bool b => .bool b
  | .int n => .int n
  | .str s => .str s

/-- Applies `canonical` to every item. -/
def canonicalItems : List Json → List Json
  | [] => []
  | x :: xs => canonical x :: canonicalItems xs

/-- Applies `canonical` to the value of every field. -/
def canonicalFields : List (String × Json) → List (String × Json)
  | [] => []
  | (k, x) :: xs => (k, canonical x) :: canonicalFields xs

end

end Json

end UserFederation
