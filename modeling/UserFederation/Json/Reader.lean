import UserFederation.Json.Token

/-! Reading JSON texts, with the unfinished containers on a stack. -/

namespace UserFederation.Json

/-- A container that is not closed yet; its parts are in reverse order. -/
inductive Unfinished
  | seq (items : List Document)
  /-- `sound` if all keys so far can be read, `key` is the key whose value comes next. -/
  | map (entries : List (String × Document)) (sound : Bool) (key : Option String)

/-- What may come next. -/
inductive Expect
  | value
  | valueOrClose
  | key
  | keyOrClose
  | colon
  | separator
  deriving DecidableEq

/-- The state of a reader: the unfinished containers, innermost first, or the finished document. -/
structure Reading where
  stack : List Unfinished
  expect : Expect
  finished : Option Document

namespace Reading

def start : Reading := ⟨[], .value, none⟩

/-- The number of nested containers that can be read. -/
def maxDepth : Nat := 127

/-- Adds a part to the innermost container. -/
def put (d : Document) : List Unfinished → Reading
  | [] => ⟨[], .separator, some d⟩
  | .seq items :: stack => ⟨.seq (d :: items) :: stack, .separator, none⟩
  | .map entries sound (some k) :: stack =>
    ⟨.map ((k, d) :: entries) sound none :: stack, .separator, none⟩
  | .map entries _ none :: stack => ⟨.map entries false none :: stack, .separator, none⟩

/-- Closes a container with its parts; one nested too deeply cannot be read. -/
def close (d : Document) (stack : List Unfinished) : Reading :=
  put (if stack.length < maxDepth then d else .unreadable) stack

/-- Reads one token. -/
def step (s : Reading) (t : Token) : Option Reading :=
  if s.finished.isSome then none
  else
    match s.expect, t, s.stack with
    | .value, .openSeq, stack | .valueOrClose, .openSeq, stack =>
      some ⟨.seq [] :: stack, .valueOrClose, none⟩
    | .value, .openMap, stack | .valueOrClose, .openMap, stack =>
      some ⟨.map [] true none :: stack, .keyOrClose, none⟩
    | .value, .scalar d, stack | .valueOrClose, .scalar d, stack => some (put d stack)
    | .value, .text v, stack | .valueOrClose, .text v, stack =>
      some (put (v.elim .unreadable .text) stack)
    | .valueOrClose, .closeSeq, .seq items :: stack | .separator, .closeSeq, .seq items :: stack =>
      some (close (.seq items.reverse) stack)
    | .separator, .comma, .seq items :: stack => some ⟨.seq items :: stack, .value, none⟩
    | .key, .text v, .map entries sound _ :: stack
    | .keyOrClose, .text v, .map entries sound _ :: stack =>
      some ⟨.map entries (sound && v.isSome) v :: stack, .colon, none⟩
    | .colon, .colon, stack => some ⟨stack, .value, none⟩
    | .separator, .comma, .map entries sound _ :: stack =>
      some ⟨.map entries sound none :: stack, .key, none⟩
    | .keyOrClose, .closeMap, .map entries sound _ :: stack
    | .separator, .closeMap, .map entries sound _ :: stack =>
      some (close (if sound then .map entries.reverse else .unreadable) stack)
    | _, _, _ => none

end Reading

/-- The document that a JSON text says, `none` if it is no JSON text. -/
def read? (text : String) : Option Document := do
  let tokens ← Token.scan? text.toList
  let s ← tokens.foldlM Reading.step Reading.start
  s.finished

/-- The value that a JSON text says. -/
def readValue? (text : String) : Option Json := (read? text).bind Document.value?

end UserFederation.Json
