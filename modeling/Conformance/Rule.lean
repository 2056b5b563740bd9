/-
Conformance/Rule.lean

Rules: a selection of elements, and a condition they should meet.

    classes that are annotated with @Entity
      should have a public empty constructor

A rule that speaks of *no* classes asks that none meets the condition; its
condition is negated when the rule is made.  Evaluation runs the condition on
every selected element, in order, and collects the events in one list; it
breaks off at the first contradiction in the model.
-/
import Conformance.Condition
import Conformance.Config

namespace Conformance

/-- What a rule can be about. -/
inductive Scope where
  | classes
  | methods
  deriving DecidableEq, Repr

/-- The word for a scope. -/
def Scope.noun : Scope → String
  | .classes => "classes"
  | .methods => "methods"

/-- The elements in scope. -/
def Scope.select (m : CodeModel) : Scope → List Element
  | .classes => m.classes
  | .methods => m.methods

/-! ### Making rules -/

/-- The elements a rule is about: those in scope that have every property. -/
structure Selection where
  scope : Scope
  negated : Bool := false
  filters : List Predicate := []

/-- All declared types. -/
def Selection.classes : Selection := { scope := .classes }

/-- All declared types, of which none should meet the condition. -/
def Selection.noClasses : Selection := { scope := .classes, negated := true }

/-- All declared methods. -/
def Selection.methods : Selection := { scope := .methods }

/-- All declared methods, of which none should meet the condition. -/
def Selection.noMethods : Selection := { scope := .methods, negated := true }

/-- Narrows a selection. -/
def Selection.that (s : Selection) (p : Predicate) : Selection :=
  { s with filters := s.filters ++ [p] }

/-- The selection in words. -/
def Selection.description (s : Selection) : String :=
  (if s.negated then "no " ++ s.scope.noun else s.scope.noun)
    ++ (if s.filters.isEmpty then ""
        else " that " ++ " and ".intercalate (s.filters.map (·.description)))

/-- A selection, a condition, and what is said about them. -/
structure Rule where
  /-- The rule in words, without the reason for it. -/
  summary : String
  reason : Option String := none
  name : Option String := none
  priority : Priority := .medium
  /-- Whether the rule may select no element, if that is said. -/
  allowEmpty : Option Bool := none
  scope : Scope
  filters : List Predicate
  condition : Condition

/-- The rule that the selected elements should meet a condition; none of them
should, if the selection is negated. -/
def Selection.should (s : Selection) (c : Condition) : Rule where
  summary := s.description ++ " should " ++ c.description
  scope := s.scope
  filters := s.filters
  condition := if s.negated then .never c else c

namespace Rule

/-- Gives the reason for a rule. -/
def because (r : Rule) (reason : String) : Rule :=
  { r with reason := some reason }

/-- Gives a rule a name, under which it is configured. -/
def named (r : Rule) (name : String) : Rule :=
  { r with name := some name }

/-- Puts a rule in other words. -/
def describedAs (r : Rule) (summary : String) : Rule :=
  { r with summary }

/-- Sets how much violations of a rule matter. -/
def withPriority (r : Rule) (priority : Priority) : Rule :=
  { r with priority }

/-- Says whether a rule may select no element. -/
def allowingEmpty (r : Rule) (allow : Bool) : Rule :=
  { r with allowEmpty := some allow }

/-- The rule in words. -/
def description (r : Rule) : String :=
  match r.reason with
  | some reason => r.summary ++ ", because " ++ reason
  | none => r.summary

/-- What the rule is configured under: its name, or else its description. -/
def key (r : Rule) : String :=
  r.name.getD r.description

/-! ### Evaluation -/

/-- Whether the rule is about an element in scope. -/
def selects (r : Rule) (m : CodeModel) (e : Element) : Bool :=
  r.filters.all fun p => p.holds m e

/-- Checks the selected ones of the given elements, and counts them on from
`checked`. -/
def sweep (r : Rule) (m : CodeModel) (checked : Nat) :
    List Element → Check Nat
  | [] => return checked
  | e :: es =>
    if r.selects m e then do
      r.condition.check m e
      sweep r m (checked + 1) es
    else sweep r m checked es

/-- Checks all selected elements: how many there are, and all events. -/
def run (r : Rule) (m : CodeModel) :
    Except Inconsistency (Nat × List Event) :=
  match (r.sweep m 0 (r.scope.select m)).runFrom [] with
  | (.ok checked, events) => .ok (checked, events)
  | (.error fault, _) => .error fault

end Rule

/-- Why a rule does not hold, or could not be evaluated. -/
inductive EvaluationError where
  /-- The rule selects no element. -/
  | emptySelection (rule noun : String)
  /-- The rule is violated. -/
  | violated (rule : String) (count : Nat) (report : String)
  /-- The model contradicts itself. -/
  | inconsistent (rule : String) (source : Inconsistency)
  deriving DecidableEq, Repr

namespace EvaluationError

/-- The rule the error is about, in words. -/
def rule : EvaluationError → String
  | emptySelection rule _ => rule
  | violated rule _ _ => rule
  | inconsistent rule _ => rule

/-- The error in words. -/
def message : EvaluationError → String
  | emptySelection rule noun =>
    "Rule '" ++ rule ++ "' failed to check any " ++ noun
      ++ ". This means either that no " ++ noun
      ++ " have been passed to the rule at all, or that no " ++ noun
      ++ " passed to the rule matched the `that()` clause."
  | violated _ _ report => report
  | inconsistent rule source =>
    "Rule '" ++ rule ++ "' could not be evaluated: " ++ source.message

/-- The error's identifier. -/
def code : EvaluationError → String
  | emptySelection _ _ => "archgate::empty_selection"
  | violated _ _ _ => "archgate::violated"
  | inconsistent _ _ => "archgate::model_inconsistency"

/-- What to do about the error. -/
def help? : EvaluationError → Option String
  | emptySelection _ _ => some
    ("call `allow_empty_should(true)` on the rule, set "
      ++ "`allow_empty_should = true` in its [rules.<name>] table, or set "
      ++ "`fail_on_empty_should = false` in archgate.toml")
  | violated _ _ _ => none
  | inconsistent _ _ => some
    ("the code model returned data this condition cannot interpret; "
      ++ "check the model builder")

end EvaluationError

namespace Rule

/-- Whether the rule may select no element.  The rule itself has the first
say, then its configuration, then the configuration of the project. -/
def mayBeEmpty (r : Rule) (config : Config) : Bool :=
  (r.allowEmpty <|> config.allowEmpty? r.key).getD (!config.failOnEmpty)

/-- The verdict on a model.  The configured priority goes before the rule's
own. -/
def evaluate (r : Rule) (m : CodeModel) (config : Config) :
    Except EvaluationError Verdict :=
  match r.run m with
  | .error fault => .error (.inconsistent r.description fault)
  | .ok (checked, events) =>
    if checked = 0 && !r.mayBeEmpty config then
      .error (.emptySelection r.description r.scope.noun)
    else .ok
      { rule := r.description
        name := r.name
        priority := (config.priority? r.key).getD r.priority
        checked
        events }

/-- Succeeds only if the rule holds. -/
def check (r : Rule) (m : CodeModel) (config : Config) :
    Except EvaluationError Unit := do
  let verdict ← r.evaluate m config
  if verdict.passed then return ()
  else
    throw (.violated verdict.rule verdict.violationCount verdict.report)

end Rule

end Conformance
