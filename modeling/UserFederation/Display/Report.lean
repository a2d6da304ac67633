import UserFederation.Display.Grid
import UserFederation.Display.Outline
import UserFederation.Display.Transcript
import UserFederation.Run.Outcome
import UserFederation.Settings.Basic

/-! How results are printed, by format. -/

namespace UserFederation

/-- What a table tells of a mapper. -/
structure MapperRow where
  name : String
  providerId : String
  id : String
  deriving DecidableEq

namespace MapperRow

/-- The row of a mapper. What is missing, or no text, is empty. -/
def ofMapper (mapper : Json) : MapperRow :=
  let text := fun key => ((mapper.get? key).bind Json.str?).getD ""
  ⟨text "name", text "providerId", text "id"⟩

/-- The rows of the mappers of a federation. -/
def ofFederation (federation : Json) : List MapperRow :=
  match federation.get? "mappers" with
  | some (.arr mappers) => mappers.map ofMapper
  | _ => []

/-- The fields of a row in order. -/
def fields (r : MapperRow) : List (String × Json) :=
  [("name", .str r.name), ("provider_id", .str r.providerId), ("id", .str r.id)]

/-- The headings of the columns. -/
def heading : List String := ["name", "Provider", "ID"]

/-- The cells of a row. -/
def cells (r : MapperRow) : List String := [r.name, r.providerId, r.id]

end MapperRow

namespace Report

/-- Prints a value. In JSON, its fields may have an order of their own. -/
def value (format : Format) (sorted ordered : Json) : Transcript :=
  match format with
  | .table | .yaml => .print (Outline.ofValue 0 sorted)
  | .json => .line ordered.pretty
  | .quiet => {}

/-- Prints the mappers of a federation. -/
def rows (style : Style) (format : Format) (rows : List MapperRow) : Transcript :=
  match format with
  | .table =>
    if rows.isEmpty then Tone.info.say style "No mappers."
    else .line (Grid.text MapperRow.heading (rows.map MapperRow.cells))
  | .json => .line (Json.arr (rows.map fun r => .obj r.fields)).pretty
  | .yaml =>
    .print (rows.foldl (fun text r => text ++ Outline.ofValue 0 (.object r.fields) ++ "\n") "")
  | .quiet => {}

/-- Prints a federation; in a table, its mappers follow the rest. -/
def federation (style : Style) (format : Format) (f : Json) : Transcript :=
  match format with
  | .table =>
    let summary := match f with
      | .obj fields => .obj (fields.filter (·.1 ≠ "mappers"))
      | j => j
    value .table summary summary ++ .line "" ++ rows style .table (MapperRow.ofFederation f)
  | format => value format f f

/-- Prints a diff. -/
def diff (style : Style) (d : Diff) : Transcript :=
  .line "" ++ .line (style.bold "before:") ++ .print (Outline.ofValue 1 d.before) ++
    .line (style.bold "after:") ++ .print (Outline.ofValue 1 d.after)

/-- Prints the report of a run. -/
def outcome (style : Style) (format : Format) (o : Outcome) : Transcript :=
  match format with
  | .table =>
    (if o.changed then Tone.success else Tone.info).say style o.message ++
      (o.diff.map (diff style)).getD {} ++
      if (o.endState.get? "mappers").isSome then
        .line "" ++ rows style .table (MapperRow.ofFederation o.endState)
      else {}
  | .quiet => .line (if o.changed then "changed" else "ok")
  | format => value format o.json (.obj o.fields)

end Report

end UserFederation
