/-
Conformance/Config.lean

Configuration: what a project says about its rules.  A rule is configured
under its key, and what is not said there is left to the rule.
-/
import Conformance.Verdict

namespace Conformance

/-- What is said about one rule. -/
structure RuleConfig where
  enabled : Option Bool := none
  allowEmpty : Option Bool := none
  priority : Option Priority := none
  deriving DecidableEq, Repr

/-- What is said about a project's rules. -/
structure Config where
  /-- Whether a rule that selects no element fails. -/
  failOnEmpty : Bool := true
  /-- Rules by key. -/
  rules : List (String × RuleConfig) := []
  deriving DecidableEq, Repr

namespace Config

/-- What is said about the rule with a key. -/
def rule? (c : Config) (key : String) : Option RuleConfig :=
  c.rules.lookup key

/-- Rules take part unless they are switched off. -/
def isEnabled (c : Config) (key : String) : Bool :=
  ((c.rule? key).bind (·.enabled)).getD true

/-- Whether a rule may select no element, if that is said. -/
def allowEmpty? (c : Config) (key : String) : Option Bool :=
  (c.rule? key).bind (·.allowEmpty)

/-- The priority of a rule, if it is said. -/
def priority? (c : Config) (key : String) : Option Priority :=
  (c.rule? key).bind (·.priority)

end Config

end Conformance
