import UserFederation.Json.Basic

/-! What a document says, whichever notation it is written in. A map keeps its entries in the order
of the document, and every one of two entries of the same key. -/

namespace UserFederation

/-- A part of a document. `unreadable` is a part that its notation allows but that stands for no
value: it may be skipped but not read. -/
inductive Document
  | null
  | bool (b : Bool)
  | int (n : Int)
  | float (x : Double)
  | text (s : String)
  | seq (items : List Document)
  | map (entries : List (String × Document))
  | unreadable
  deriving Inhabited

namespace Document

mutual

/-- The JSON value that a document stands for, if all of it can be read. -/
def value? : Document → Option Json
  | .null => some .null
  | .bool b => some (.bool b)
  | .int n => some (.int n)
  | .float x => some (.float x)
  | .text s => some (.str s)
  | .seq items => (values? items).map .arr
  | .map entries => (fieldValues? entries).map Json.object
  | .unreadable => none

/-- The values of a list of documents. -/
def values? : List Document → Option (List Json)
  | [] => some []
  | d :: ds => return (← value? d) :: (← values? ds)

/-- The values of the entries of a map. -/
def fieldValues? : List (String × Document) → Option (List (String × Json))
  | [] => some []
  | (k, d) :: ds => return (k, ← value? d) :: (← fieldValues? ds)

end

end Document

mutual

/-- The document that says a JSON value. -/
def Json.document : Json → Document
  | .null => .null
  | .bool b => .bool b
  | .int n => .int n
  | .float x => .float x
  | .str s => .text s
  | .arr items => .seq (Json.itemDocuments items)
  | .obj fields => .map (Json.fieldDocuments fields)

/-- The documents of a list of values. -/
def Json.itemDocuments : List Json → List Document
  | [] => []
  | x :: xs => x.document :: Json.itemDocuments xs

/-- The documents of a list of fields. -/
def Json.fieldDocuments : List (String × Json) → List (String × Document)
  | [] => []
  | (k, x) :: xs => (k, x.document) :: Json.fieldDocuments xs

end

end UserFederation
