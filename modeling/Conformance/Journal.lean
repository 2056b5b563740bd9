/-
Conformance/Journal.lean

The journal: what building and evaluating leave behind for someone who
watches.  Each function below gives the entries of one activity, in order;
the activity itself is elsewhere and does not depend on them.
-/
import Conformance.Catalog
import Conformance.CodeBase
import Conformance.Evaluation

namespace Conformance

/-- How urgent a journal entry is. -/
inductive Level where
  | debug
  | info
  | warn
  deriving DecidableEq, Repr

/-- The word for a level. -/
def Level.label : Level → String
  | .debug => "DEBUG"
  | .info => "INFO"
  | .warn => "WARN"

/-- A journal entry. -/
structure JournalEntry where
  level : Level
  message : String
  deriving DecidableEq, Repr

/-- The entry as a line. -/
def JournalEntry.line (entry : JournalEntry) : String :=
  entry.level.label ++ " " ++ entry.message

/-- The code base has been built. -/
def CodeBase.journal (b : CodeBase) : List JournalEntry :=
  [⟨.debug, "Built code model: " ++ toString b.classIds.length
    ++ " classes, " ++ toString b.slots.size ++ " elements, "
    ++ toString b.edges.size ++ " dependencies"⟩]

/-- A rule has been evaluated. -/
def Rule.journal (r : Rule) (m : CodeModel) : List JournalEntry :=
  match r.run m with
  | .error fault =>
    [⟨.warn, "Rule '" ++ r.description ++ "' aborted: " ++ fault.message⟩]
  | .ok (checked, _) =>
    [⟨.debug, "Rule '" ++ r.description ++ "' selected " ++ toString checked
      ++ " " ++ r.scope.noun⟩]

/-- A rule has been evaluated among others, or skipped. -/
def Evaluation.ruleJournal (m : CodeModel) (config : Config) (r : Rule) :
    List JournalEntry :=
  if !config.isEnabled r.key then
    [⟨.debug, "Skipping disabled rule: " ++ r.key⟩]
  else
    r.journal m ++
      match r.evaluate m config with
      | .ok _ => []
      | .error error =>
        [⟨.warn, "Rule " ++ r.key ++ " failed: " ++ error.message⟩]

/-- Rules have been evaluated. -/
def Evaluation.journal (rules : List Rule) (config : Config)
    (m : CodeModel) : List JournalEntry :=
  let result := Evaluation.ofRules rules config m
  [⟨.info, "Starting evaluation of " ++ toString rules.length ++ " rules"⟩]
    ++ rules.flatMap (Evaluation.ruleJournal m config)
    ++ [⟨.info, "Evaluation complete: " ++ toString result.violationCount
      ++ " violations in " ++ toString result.verdicts.length ++ " rules, "
      ++ toString result.failures.length ++ " errors"⟩]

/-- A preset has been asked for its rules. -/
def Catalog.Preset.journal (p : Preset) : List JournalEntry :=
  [⟨.debug, "Preset " ++ p.name ++ " provides " ++ toString p.rules.length
    ++ " rules"⟩]

end Conformance
