/-
Conformance/Inspect.lean

Short forms of predicates, conditions, selections and rules for someone who
inspects them: the parts that can be shown, and `..` for the rest.
-/
import Conformance.Rule
import Conformance.Text.Quoted

namespace Conformance.Inspect

/-- A value by name, with its fields, between braces. -/
def record (name : String) (fields : List (String × String)) : String :=
  name ++ " \x7b "
    ++ ", ".intercalate (fields.map fun (field, value) =>
      field ++ ": " ++ value)
    ++ " \x7d"

/-- A value by name of which only some fields are shown. -/
def openRecord (name : String) (fields : List (String × String)) : String :=
  name ++ " \x7b "
    ++ String.join (fields.map fun (field, value) =>
      field ++ ": " ++ value ++ ", ")
    ++ ".. \x7d"

/-- Yes or no. -/
def ofBool (b : Bool) : String :=
  if b then "true" else "false"

/-- A value that may be missing. -/
def ofOption {α : Type} (shown : α → String) : Option α → String
  | none => "None"
  | some a => "Some(" ++ shown a ++ ")"

/-- A priority. -/
def ofPriority : Priority → String
  | .low => "Low"
  | .medium => "Medium"
  | .high => "High"

/-- A predicate. -/
def ofPredicate (p : Predicate) : String :=
  openRecord "Predicate" [("description", Text.quoted p.description)]

/-- A condition. -/
def ofCondition (c : Condition) : String :=
  openRecord "Condition" [("description", Text.quoted c.description)]

/-- A selection. -/
def ofSelection (s : Selection) : String :=
  record "Selection"
    [("negated", ofBool s.negated),
      ("predicates", "[" ++ ", ".intercalate (s.filters.map ofPredicate)
        ++ "]")]

/-- A rule. -/
def ofRule (r : Rule) : String :=
  openRecord "Rule"
    [("description", Text.quoted r.description),
      ("name", ofOption Text.quoted r.name),
      ("priority", ofPriority r.priority),
      ("allow_empty_should", ofOption ofBool r.allowEmpty)]

end Conformance.Inspect
