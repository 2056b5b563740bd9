/-
Conformance/Config/Toml.lean

Reading a configuration from a TOML document.

    fail_on_empty_should = false

    [rules.no-field-injection]
    enabled = false
    priority = "high"

Keys that mean nothing here are passed over, whatever their value is.  A
rule's settings may also be listed in an array, in the order `enabled`,
`allow_empty_should`, `priority`; a point in time counts as settings that say
nothing.
-/
import Conformance.Config
import Conformance.Toml.Statement

namespace Conformance.Config

open Toml (Value Table)

/-- Reads yes or no. -/
def bool? : Value → Option Bool
  | .boolean b => some b
  | _ => none

/-- Whether a value has parts and none is there. -/
def isEmptyValue : Value → Bool
  | .array [] => true
  | .table [] => true
  | _ => false

/-- Reads a priority: a keyword, or a table with the keyword as its only
key. -/
def priorityOf? : Value → Option Priority
  | .string keyword => Priority.ofKeyword? keyword
  | .table [(keyword, value)] =>
    if isEmptyValue value then Priority.ofKeyword? keyword else none
  | _ => none

/-- Reads a setting that may be missing; one that is there must be right. -/
def setting? {α : Type} (read : Value → Option α) :
    Option Value → Option (Option α)
  | none => some none
  | some value => (read value).map some

/-- Reads the settings of a rule, given a way to find them. -/
def ruleFrom? (enabled allowEmpty priority : Option Value) :
    Option RuleConfig := do
  return {
    enabled := ← setting? bool? enabled
    allowEmpty := ← setting? bool? allowEmpty
    priority := ← setting? priorityOf? priority }

/-- Reads the settings of a rule. -/
def ruleOf? : Value → Option RuleConfig
  | .table entries =>
    ruleFrom? (entries.lookup "enabled")
      (entries.lookup "allow_empty_should") (entries.lookup "priority")
  | .array items => ruleFrom? items[0]? items[1]? items[2]?
  | .datetime _ => some {}
  | _ => none

/-- Reads the settings of all rules. -/
def rulesOf? : List (String × Value) → Option (List (String × RuleConfig))
  | [] => some []
  | (key, value) :: entries => do
    let rule ← ruleOf? value
    return (key, rule) :: (← rulesOf? entries)

/-- Reads a configuration. -/
def ofTable? (table : Table) : Option Config := do
  let failOnEmpty ← setting? bool? (table.lookup "fail_on_empty_should")
  let rules ← match table.lookup "rules" with
    | none => some []
    | some (.table entries) => rulesOf? entries
    | some _ => none
  return { failOnEmpty := failOnEmpty.getD true, rules }

/-- Reads the text of a configuration. -/
def parse? (text : String) : Option Config :=
  (Toml.parse? text).bind ofTable?

end Conformance.Config
