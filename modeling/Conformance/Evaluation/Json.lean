/-
Conformance/Evaluation/Json.lean

The machine-readable report on an evaluation.
-/
import Conformance.Evaluation
import Conformance.Json

namespace Conformance

/-- The subject of an event: which numbering its id belongs to, and the id. -/
def Subject.toJson : Subject → Json
  | .element id => .object [("type", .text "element"), ("id", .number id)]
  | .edge id => .object [("type", .text "edge"), ("id", .number id)]

/-- An event. -/
def Event.toJson (e : Event) : Json :=
  .object
    [("subject", e.subject.toJson), ("outcome", .text e.outcome.label),
      ("message", .text e.message)]

/-- A verdict; a rule without a name has no such field. -/
def Verdict.toJson (v : Verdict) : Json :=
  .object <|
    [("rule", .text v.rule)]
      ++ v.name.toList.map (fun name => ("name", .text name))
      ++ [("priority", .text v.priority.keyword),
        ("checked", .number v.checked),
        ("violation_count", .number v.violationCount),
        ("events", .list (v.events.map (·.toJson)))]

/-- A failure. -/
def RuleFailure.toJson (f : RuleFailure) : Json :=
  .object
    [("rule", .text f.rule), ("code", .text f.code),
      ("message", .text f.message)]

/-- All that came of an evaluation. -/
def Evaluation.toJson (result : Evaluation) : Json :=
  .object
    [("verdicts", .list (result.verdicts.map (·.toJson))),
      ("errors", .list (result.failures.map (·.toJson))),
      ("skipped", .list (result.skipped.map .text))]

end Conformance
