/-
Conformance/Verdict.lean

Verdicts: the outcome of one rule on one model, and its text in reports.
-/
import Conformance.Event

namespace Conformance

/-- How much a violation matters. -/
inductive Priority where
  | low
  | medium
  | high
  deriving DecidableEq, Repr

/-- The word for a priority in reports. -/
def Priority.label : Priority → String
  | .low => "LOW"
  | .medium => "MEDIUM"
  | .high => "HIGH"

/-- The word for a priority in configuration files and machine-readable
reports. -/
def Priority.keyword : Priority → String
  | .low => "low"
  | .medium => "medium"
  | .high => "high"

/-- Reads a priority's keyword; only lower case counts. -/
def Priority.ofKeyword? : String → Option Priority
  | "low" => some .low
  | "medium" => some .medium
  | "high" => some .high
  | _ => none

/-- The outcome of a rule. -/
structure Verdict where
  /-- The rule in words. -/
  rule : String
  name : Option String := none
  priority : Priority := .medium
  /-- How many elements the rule selected. -/
  checked : Nat := 0
  events : List Event := []
  deriving DecidableEq, Repr

namespace Verdict

/-- The violations found, in order. -/
def violations (v : Verdict) : List Event :=
  Event.violations v.events

/-- How many violations were found. -/
def violationCount (v : Verdict) : Nat :=
  Event.violationCount v.events

/-- Whether the rule holds. -/
def passed (v : Verdict) : Bool :=
  v.violationCount == 0

/-- The verdict in words: a line for the rule, and a line per violation. -/
def report (v : Verdict) : String :=
  if v.passed then "Rule '" ++ v.rule ++ "' was not violated"
  else
    "Architecture Violation [Priority: " ++ v.priority.label ++ "] - Rule '"
      ++ v.rule ++ "' was violated (" ++ toString v.violationCount
      ++ " times):"
      ++ String.join (v.violations.map fun e => "\n" ++ e.message)

end Verdict

end Conformance
