import UserFederation.Declaration.Json

/-! What a run reports. -/

namespace UserFederation

/-- What was there before and is there after a run. -/
structure Diff where
  before : Json
  after : Json
  deriving DecidableEq

/-- The diff of two sides; a missing side is the empty text. -/
def Diff.ofSides (before after : Option Json) : Diff :=
  ⟨before.getD (.str ""), after.getD (.str "")⟩

/-- The report of a run. -/
structure Outcome where
  changed : Bool := false
  message : String := ""
  diff : Option Diff := none
  /-- The changes as they are shown. -/
  proposed : Json
  /-- The federation that was found. -/
  existing : Json
  /-- The federation as it is, or would be, after the run. -/
  endState : Json := .emptyObject
  deriving DecidableEq

namespace Outcome

/-- The fields of a report in the order in which they are printed; the object of the diff is built
by a function. -/
def fieldsWith (object : List (String × Json) → Json) (o : Outcome) : List (String × Json) :=
  [("changed", .bool o.changed), ("msg", .str o.message)] ++
    o.diff.toList.map (fun d => ("diff", object [("before", d.before), ("after", d.after)])) ++
    [("proposed", o.proposed), ("existing", o.existing), ("end_state", o.endState)]

/-- The fields of a report, all in the order in which they are printed. -/
def fields (o : Outcome) : List (String × Json) := o.fieldsWith .obj

/-- The JSON value of a report. -/
def json (o : Outcome) : Json := .object (o.fieldsWith .object)

/-- Reads a diff. -/
def readDiff? (d : Document) : Option Diff := do
  let part ← d.record? Json.recordRules 2
  let value := fun i key => (part i [key]).join.bind Document.value?
  return ⟨← value 0 "before", ← value 1 "after"⟩

/-- Reads a report. Only the diff may be missing. -/
def read? (d : Document) : Option Outcome := do
  let part ← d.record? Json.recordRules 6
  let required := fun i key => (part i [key]).join
  let value := fun i key => (required i key).bind Document.value?
  return {
    changed := ← (required 0 "changed").bind Document.bool?
    message := ← (required 1 "msg").bind Document.text?
    diff := ← (← part 2 ["diff"]) |> Document.optional? readDiff?
    proposed := ← value 3 "proposed"
    existing := ← value 4 "existing"
    endState := ← value 5 "end_state" }

end Outcome

end UserFederation
