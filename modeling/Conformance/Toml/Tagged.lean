/-
Conformance/Toml/Tagged.lean

Points in time that are written as tables.

A table may carry a point in time as text, under a key of its own:

    released = { "$__toml_private_datetime" = "1979-05-27" }

The first entry decides.  If it has that key, the table stands for the point
in time, whatever else is in it; and if its value is no text of one, the
document makes no sense.  Anywhere but in front the key is like any other, and
so it is in the outermost table, which is always a table.
-/
import Conformance.Toml.Datetime
import Conformance.Toml.Value

namespace Conformance.Toml

/-- The key whose value is a point in time. -/
def datetimeKey : String := "$__toml_private_datetime"

/-- Reads the text of a point in time. -/
def datetimeOf? : Value → Option Value
  | .string s => if isDatetimeText s.toList then some (.datetime s) else none
  | _ => none

mutual

/-- The value with points in time for the tables that stand for them. -/
def untag? : Value → Option Value
  | .array items => (untagItems? items).map .array
  | .table [] => some (.table [])
  | .table ((key, first) :: entries) =>
    if key = datetimeKey then datetimeOf? first
    else do
      let first ← untag? first
      let entries ← untagEntries? entries
      return .table ((key, first) :: entries)
  | v => some v

/-- The items of an array, each with its points in time. -/
def untagItems? : List Value → Option (List Value)
  | [] => some []
  | item :: items => do
    let item ← untag? item
    return item :: (← untagItems? items)

/-- The entries of a table, each with its points in time. -/
def untagEntries? : List (String × Value) → Option Table
  | [] => some []
  | (key, v) :: entries => do
    let v ← untag? v
    return (key, v) :: (← untagEntries? entries)

end

end Conformance.Toml
