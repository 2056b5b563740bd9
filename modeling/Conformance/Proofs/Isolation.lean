/-
Conformance/Proofs/Isolation.lean

Rules are evaluated apart from each other.

Evaluating many rules goes from one to the next and files what comes of each at
the end of one of three lists.  Each rule has an outcome of its own
(`Rule.outcome`), which is of one of three sorts, and the lists are the outcomes
sorted (`Evaluation.ofOutcomes`).  One step adds one outcome (`add_ofOutcomes`),
so a whole run sorts the outcomes of all rules, in their order
(`ofRules_eq_ofOutcomes`).

What is asked of the whole is then asked of each outcome: all passed if none
stands against it, and the violations are those of the verdicts.  Checking a
single rule tells the same of its outcome (`isFavourable_outcome`,
`violationCount_outcome`), unless the rule is switched off.
-/
import Mathlib.Algebra.GroupWithZero.Nat
import Conformance.Evaluation
import Conformance.Proofs.Checks

namespace Conformance

/-! ### Outcomes of rules -/

/-- What comes of a rule among others. -/
inductive RuleOutcome where
  | verdict (v : Verdict)
  | failure (f : RuleFailure)
  | skipped (key : String)
  deriving DecidableEq, Repr

namespace RuleOutcome

def verdict? : RuleOutcome → Option Verdict
  | verdict v => some v
  | _ => none

def failure? : RuleOutcome → Option RuleFailure
  | failure f => some f
  | _ => none

def skipped? : RuleOutcome → Option String
  | skipped key => some key
  | _ => none

/-- Whether the outcome lets the whole pass.  A rule that is switched off does
not stand in the way. -/
def isFavourable : RuleOutcome → Bool
  | verdict v => v.passed
  | failure _ => false
  | skipped _ => true

/-- The violations that count for the whole. -/
def violationCount : RuleOutcome → Nat
  | verdict v => v.violationCount
  | _ => 0

end RuleOutcome

/-- What comes of a rule by itself: it is skipped if it is switched off, and
else has a verdict or fails. -/
def Rule.outcome (m : CodeModel) (config : Config) (r : Rule) : RuleOutcome :=
  if config.isEnabled r.key then
    match r.evaluate m config with
    | .ok v => .verdict v
    | .error error => .failure ⟨r.key, error.code, error.message⟩
  else .skipped r.key

namespace Evaluation

variable {m : CodeModel} {config : Config}

/-! ### Sorting outcomes -/

/-- Outcomes sorted into three lists, each in order. -/
def ofOutcomes (outcomes : List RuleOutcome) : Evaluation where
  verdicts := outcomes.filterMap (·.verdict?)
  failures := outcomes.filterMap (·.failure?)
  skipped := outcomes.filterMap (·.skipped?)

theorem ofOutcomes_nil : ofOutcomes [] = {} := rfl

theorem ofOutcomes_verdict (v : Verdict) (outcomes : List RuleOutcome) :
    ofOutcomes (.verdict v :: outcomes)
      = { verdicts := v :: (ofOutcomes outcomes).verdicts
          failures := (ofOutcomes outcomes).failures
          skipped := (ofOutcomes outcomes).skipped } := rfl

theorem ofOutcomes_failure (f : RuleFailure) (outcomes : List RuleOutcome) :
    ofOutcomes (.failure f :: outcomes)
      = { verdicts := (ofOutcomes outcomes).verdicts
          failures := f :: (ofOutcomes outcomes).failures
          skipped := (ofOutcomes outcomes).skipped } := rfl

theorem ofOutcomes_skipped (key : String) (outcomes : List RuleOutcome) :
    ofOutcomes (.skipped key :: outcomes)
      = { verdicts := (ofOutcomes outcomes).verdicts
          failures := (ofOutcomes outcomes).failures
          skipped := key :: (ofOutcomes outcomes).skipped } := rfl

/-- Outcomes that follow others are sorted behind them. -/
theorem ofOutcomes_append (outcomes outcomes' : List RuleOutcome) :
    ofOutcomes (outcomes ++ outcomes')
      = { verdicts := (ofOutcomes outcomes).verdicts ++ (ofOutcomes outcomes').verdicts
          failures := (ofOutcomes outcomes).failures ++ (ofOutcomes outcomes').failures
          skipped := (ofOutcomes outcomes).skipped ++ (ofOutcomes outcomes').skipped } := by
  simp only [ofOutcomes, List.filterMap_append]

/-- Every outcome is in one of the lists. -/
theorem length_ofOutcomes (outcomes : List RuleOutcome) :
    (ofOutcomes outcomes).verdicts.length + (ofOutcomes outcomes).failures.length
      + (ofOutcomes outcomes).skipped.length = outcomes.length := by
  induction outcomes with
  | nil => rfl
  | cons outcome outcomes ih =>
    rw [List.length_cons, ← ih]
    cases outcome with
    | verdict v =>
      simp only [ofOutcomes_verdict, List.length_cons]
      omega
    | failure f =>
      simp only [ofOutcomes_failure, List.length_cons]
      omega
    | skipped key =>
      simp only [ofOutcomes_skipped, List.length_cons]
      omega

/-- The whole passes if no outcome stands against it. -/
theorem passed_ofOutcomes (outcomes : List RuleOutcome) :
    (ofOutcomes outcomes).passed = outcomes.all (·.isFavourable) := by
  induction outcomes with
  | nil => rfl
  | cons outcome outcomes ih =>
    rw [List.all_cons, ← ih]
    cases outcome with
    | verdict v =>
      rw [ofOutcomes_verdict]
      show (_ && (v.passed && _)) = (v.passed && (_ && _))
      exact Bool.and_left_comm _ _ _
    | failure f => rfl
    | skipped key => rfl

theorem violationCount_eq_sum (result : Evaluation) :
    result.violationCount = (result.verdicts.map (·.violationCount)).sum := by
  rw [List.sum_eq_foldl, List.foldl_map]
  rfl

/-- The violations of the whole are those of the verdicts. -/
theorem violationCount_ofOutcomes (outcomes : List RuleOutcome) :
    (ofOutcomes outcomes).violationCount = (outcomes.map (·.violationCount)).sum := by
  rw [violationCount_eq_sum]
  induction outcomes with
  | nil => rfl
  | cons outcome outcomes ih =>
    rw [List.map_cons, List.sum_cons, ← ih]
    cases outcome with
    | verdict v =>
      rw [ofOutcomes_verdict, List.map_cons, List.sum_cons]
      rfl
    | failure f => exact (Nat.zero_add _).symm
    | skipped key => exact (Nat.zero_add _).symm

/-! ### Rule after rule -/

/-- One more rule adds its outcome, and nothing else changes. -/
theorem add_ofOutcomes (outcomes : List RuleOutcome) (r : Rule) :
    add m config (ofOutcomes outcomes) r
      = ofOutcomes (outcomes ++ [r.outcome m config]) := by
  rw [ofOutcomes_append]
  unfold add Rule.outcome
  by_cases henabled : config.isEnabled r.key = true
  · rw [if_pos henabled, henabled]
    rcases r.evaluate m config with error | v
    · simp only [ofOutcomes_failure, ofOutcomes_nil, List.append_nil]
      rfl
    · simp only [ofOutcomes_verdict, ofOutcomes_nil, List.append_nil]
      rfl
  · rw [if_neg henabled, Bool.eq_false_iff.mpr henabled]
    simp only [ofOutcomes_skipped, ofOutcomes_nil, List.append_nil]
    rfl

theorem foldl_add_ofOutcomes (outcomes : List RuleOutcome) (rules : List Rule) :
    rules.foldl (add m config) (ofOutcomes outcomes)
      = ofOutcomes (outcomes ++ rules.map (·.outcome m config)) := by
  induction rules generalizing outcomes with
  | nil => rw [List.foldl_nil, List.map_nil, List.append_nil]
  | cons r rules ih =>
    rw [List.foldl_cons, add_ofOutcomes, ih, List.append_assoc]
    rfl

/-- Evaluating rules sorts their outcomes. -/
theorem ofRules_eq_ofOutcomes (rules : List Rule) (config : Config) (m : CodeModel) :
    ofRules rules config m = ofOutcomes (rules.map (·.outcome m config)) :=
  foldl_add_ofOutcomes [] rules

end Evaluation

/-! ### Checking a single rule -/

/-- The number of violations that a failed check tells of. -/
def reportedCount : Except EvaluationError Unit → Nat
  | .error (.violated _ count _) => count
  | _ => 0

namespace Rule

variable {r : Rule} {m : CodeModel} {config : Config}

/-- That a rule is violated is told by its verdict; evaluation does not fail for
it. -/
theorem reportedCount_of_error {error : EvaluationError}
    (h : r.evaluate m config = .error error) : reportedCount (.error error) = 0 := by
  unfold evaluate at h
  split at h
  · obtain rfl := Except.error.inj h
    rfl
  · split at h
    · obtain rfl := Except.error.inj h
      rfl
    · cases h

/-- A rule lets the whole pass if it is switched off or holds. -/
theorem isFavourable_outcome (r : Rule) (m : CodeModel) (config : Config) :
    (r.outcome m config).isFavourable = true
      ↔ (config.isEnabled r.key = true → r.check m config = .ok ()) := by
  rw [check_eq_ok_iff]
  unfold outcome
  by_cases henabled : config.isEnabled r.key = true
  · rw [if_pos henabled]
    rcases r.evaluate m config with error | v
    · simp [henabled, RuleOutcome.isFavourable]
    · simp [henabled, RuleOutcome.isFavourable]
  · -- nothing is asked of a rule that is switched off
    rw [if_neg henabled]
    simp [henabled, RuleOutcome.isFavourable]

/-- The violations of a rule that is switched on are those its check tells of. -/
theorem violationCount_outcome (henabled : config.isEnabled r.key = true) :
    (r.outcome m config).violationCount = reportedCount (r.check m config) := by
  unfold outcome
  rw [if_pos henabled]
  rcases h : r.evaluate m config with error | v
  · rw [check_of_error h, reportedCount_of_error h]
    rfl
  · rw [check_of_ok h]
    by_cases hpassed : v.passed = true
    · rw [if_pos hpassed]
      exact beq_iff_eq.mp hpassed
    · rw [if_neg hpassed]
      rfl

end Rule

/-! ### Many rules and single ones -/

namespace Evaluation

/-- A rule that is switched off adds no violations. -/
theorem sum_violationCount_outcome (rules : List Rule) (m : CodeModel)
    (config : Config) :
    (rules.map fun r => (r.outcome m config).violationCount).sum
      = ((rules.filter fun r => config.isEnabled r.key).map fun r =>
          reportedCount (r.check m config)).sum := by
  induction rules with
  | nil => rfl
  | cons r rules ih =>
    rw [List.map_cons, List.sum_cons, ih, List.filter_cons]
    by_cases henabled : config.isEnabled r.key = true
    · rw [if_pos henabled, List.map_cons, List.sum_cons,
        Rule.violationCount_outcome henabled]
    · rw [if_neg henabled, Rule.outcome, if_neg henabled]
      exact Nat.zero_add _

/-- All rules pass together if each that is switched on holds by itself. -/
theorem passed_ofRules_iff (rules : List Rule) (config : Config) (m : CodeModel) :
    (ofRules rules config m).passed = true
      ↔ ∀ r ∈ rules, config.isEnabled r.key = true → r.check m config = .ok () := by
  rw [ofRules_eq_ofOutcomes, passed_ofOutcomes, List.all_map, List.all_eq_true]
  simp only [Function.comp_apply, Rule.isFavourable_outcome]

/-- **Rules do not get in each other's way.**  Every rule has one outcome, and
each of the three lists holds the outcomes of its sort in the order of the rules,
so that their lengths add up.  Rules that follow others are evaluated as if they
were alone.  All together pass if and only if each rule that is switched on holds
when it is checked by itself, and the violations are those that these checks tell
of. -/
theorem ofRules_sorts_outcomes (rules : List Rule) (config : Config)
    (m : CodeModel) :
    (ofRules rules config m).verdicts
        = rules.filterMap (fun r => (r.outcome m config).verdict?)
    ∧ (ofRules rules config m).failures
        = rules.filterMap (fun r => (r.outcome m config).failure?)
    ∧ (ofRules rules config m).skipped
        = rules.filterMap (fun r => (r.outcome m config).skipped?)
    ∧ (ofRules rules config m).verdicts.length
        + (ofRules rules config m).failures.length
        + (ofRules rules config m).skipped.length = rules.length
    ∧ (∀ rules' : List Rule, ofRules (rules ++ rules') config m
        = { verdicts := (ofRules rules config m).verdicts
              ++ (ofRules rules' config m).verdicts
            failures := (ofRules rules config m).failures
              ++ (ofRules rules' config m).failures
            skipped := (ofRules rules config m).skipped
              ++ (ofRules rules' config m).skipped })
    ∧ ((ofRules rules config m).passed = true
        ↔ ∀ r ∈ rules, config.isEnabled r.key = true → r.check m config = .ok ())
    ∧ (ofRules rules config m).violationCount
        = ((rules.filter fun r => config.isEnabled r.key).map fun r =>
            reportedCount (r.check m config)).sum := by
  refine ⟨?_, ?_, ?_, ?_, ?_, ?_, ?_⟩
  · rw [ofRules_eq_ofOutcomes]
    exact List.filterMap_map
  · rw [ofRules_eq_ofOutcomes]
    exact List.filterMap_map
  · rw [ofRules_eq_ofOutcomes]
    exact List.filterMap_map
  · rw [ofRules_eq_ofOutcomes, length_ofOutcomes, List.length_map]
  · intro rules'
    simp only [ofRules_eq_ofOutcomes, List.map_append, ofOutcomes_append]
  · exact passed_ofRules_iff rules config m
  · rw [ofRules_eq_ofOutcomes, violationCount_ofOutcomes, List.map_map,
      ← sum_violationCount_outcome]
    rfl

end Evaluation

end Conformance
