/-
Conformance/Evaluation.lean

Evaluating many rules.  Each rule ends up in exactly one of three lists: it
was skipped, it has a verdict, or it failed; a failure does not keep the
others from being evaluated.
-/
import Conformance.Rule

namespace Conformance

/-- A rule that could not be evaluated. -/
structure RuleFailure where
  /-- The rule's key. -/
  rule : String
  code : String
  message : String
  deriving DecidableEq, Repr

/-- What came of evaluating rules. -/
structure Evaluation where
  verdicts : List Verdict := []
  failures : List RuleFailure := []
  /-- The keys of rules that are switched off. -/
  skipped : List String := []
  deriving DecidableEq, Repr

namespace Evaluation

/-- Adds what comes of one more rule. -/
def add (m : CodeModel) (config : Config) (result : Evaluation) (r : Rule) :
    Evaluation :=
  if !config.isEnabled r.key then
    { result with skipped := result.skipped ++ [r.key] }
  else
    match r.evaluate m config with
    | .ok verdict => { result with verdicts := result.verdicts ++ [verdict] }
    | .error error =>
      { result with
        failures := result.failures ++ [⟨r.key, error.code, error.message⟩] }

/-- Evaluates rules, in order. -/
def ofRules (rules : List Rule) (config : Config) (m : CodeModel) :
    Evaluation :=
  rules.foldl (add m config) {}

/-- Whether every rule that took part holds. -/
def passed (result : Evaluation) : Bool :=
  result.failures.isEmpty && result.verdicts.all (·.passed)

/-- How many violations were found in all. -/
def violationCount (result : Evaluation) : Nat :=
  result.verdicts.foldl (fun count v => count + v.violationCount) 0

/-- The verdicts on violated rules. -/
def failing (result : Evaluation) : List Verdict :=
  result.verdicts.filter fun v => !v.passed

/-- What came of the rules, in words. -/
def report (result : Evaluation) : String :=
  let failed := toString result.failing.length
  "\n=== archgate: " ++ toString result.violationCount
    ++ " violation(s) in " ++ failed ++ " rule(s) ===\n\n"
    ++ String.join (result.failing.map fun v => v.report ++ "\n\n")
    ++ String.join (result.failures.map fun f =>
      "error [" ++ f.rule ++ "]: " ++ f.message ++ "\n\n")
    ++ "Total: " ++ toString result.verdicts.length
    ++ " rule(s) evaluated, " ++ failed ++ " failed, "
    ++ toString result.failures.length ++ " error(s), "
    ++ toString result.skipped.length ++ " skipped\n"

end Evaluation

end Conformance
