/-
Conformance/Assertion.lean

Assertions: a test succeeds if all its rules hold under the project's
configuration, and else fails with a message that says everything.
-/
import Conformance.Journal
import Conformance.Project

namespace Conformance

/-- Why an assertion fails. -/
inductive AssertionFailure where
  | badConfig (error : ConfigError)
  | unknownPreset (name : String)
  | rulesBroken (result : Evaluation)
  deriving DecidableEq, Repr

/-- The failure in words. -/
def AssertionFailure.message : AssertionFailure → String
  | badConfig error => "archgate: failed to load config: " ++ error.message
  | unknownPreset name =>
    "archgate: unknown preset `" ++ name
      ++ "`. Valid presets: standard, jpa, spring, all"
  | rulesBroken result => result.report

namespace Project

/-- Asserts that rules hold under a configuration that may have failed to
load. -/
def assertUnder (config : Except ConfigError Config) (rules : List Rule)
    (m : CodeModel) : Except AssertionFailure Unit :=
  match config with
  | .error error => .error (.badConfig error)
  | .ok config =>
    let result := Evaluation.ofRules rules config m
    if result.passed then .ok () else .error (.rulesBroken result)

/-- Asserts that rules hold. -/
def assertRules (p : Project) (rules : List Rule) (m : CodeModel) :
    Except AssertionFailure Unit :=
  assertUnder (p.config none) rules m

/-- Asserts that rules hold under the configuration at a path. -/
def assertRulesWithConfig (p : Project) (rules : List Rule) (m : CodeModel)
    (path : String) : Except AssertionFailure Unit :=
  assertUnder (p.config (some path)) rules m

/-- Asserts that a rule holds. -/
def assertRule (p : Project) (rule : Rule) (m : CodeModel) :
    Except AssertionFailure Unit :=
  p.assertRules [rule] m

/-- Asserts that the rules of a preset hold. -/
def assertPreset (p : Project) (name : String) (m : CodeModel) :
    Except AssertionFailure Unit :=
  match Catalog.Preset.ofName? name with
  | some preset => p.assertRules preset.rules m
  | none => .error (.unknownPreset name)

/-- Asserts that each rule holds, up to the first that does not. -/
def assertEach (p : Project) (m : CodeModel) :
    List Rule → Except AssertionFailure Unit
  | [] => .ok ()
  | rule :: rules => do
    p.assertRule rule m
    assertEach p m rules

/-! ### What assertions leave in the journal -/

/-- Rules have been asserted under a configuration. -/
def journalUnder (config : Except ConfigError Config) (rules : List Rule)
    (m : CodeModel) : List JournalEntry :=
  match config with
  | .error _ => []
  | .ok config => Evaluation.journal rules config m

/-- A preset has been asserted. -/
def presetJournal (p : Project) (name : String) (m : CodeModel) :
    List JournalEntry :=
  match Catalog.Preset.ofName? name with
  | some preset =>
    preset.journal ++ journalUnder (p.config none) preset.rules m
  | none => []

/-- Rules have been asserted one by one. -/
def eachJournal (p : Project) (m : CodeModel) : List Rule → List JournalEntry
  | [] => []
  | rule :: rules =>
    journalUnder (p.config none) [rule] m ++
      match p.assertRule rule m with
      | .ok _ => eachJournal p m rules
      | .error _ => []

end Project

end Conformance
