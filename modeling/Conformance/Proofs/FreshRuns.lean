/-
Conformance/Proofs/FreshRuns.lean

Evaluating a rule is checking its elements one by one, each afresh.

Evaluation carries a single list of events through all selected elements and,
within each, through all parts of the condition.  Nothing looks at that list: a
check is *steady* if it comes out the same, and adds the same events, whatever
was collected before it, also when it breaks off.  What checks are made of is
steady, and so is what is put together from steady parts (`Steady.bind`; a part
run aside starts from nothing anyway), hence every condition
(`Condition.steady_check`).  Built-in checks follow dependencies one after the
other; for those the step is one dependency, and the run is by induction on the
list.

So a rule can be told element by element.  `Rule.ComesTo` says what its result
is in terms of the findings on each element by itself: the first element whose
check breaks off decides, else an empty selection that is not allowed, else the
findings together make up the verdict.  Evaluation gives that result and no
other (`Rule.evaluate_iff_comesTo`).
-/
import Conformance.Proofs.Checks

namespace Conformance

/-! ### Steady checks -/

namespace Check

variable {α β : Type} {x : Check α}

/-- The check comes out the same and adds the same events, whatever was
collected before it. -/
def Steady (x : Check α) : Prop :=
  ∀ events, x.runFrom events = ((x.runFrom []).1, events ++ (x.runFrom []).2)

theorem steady_pure (a : α) : Steady (pure a) := by
  intro events
  rw [runFrom_pure, runFrom_pure, List.append_nil]

theorem steady_throw (fault : Inconsistency) : Steady (throw fault : Check α) := by
  intro events
  rw [runFrom_throw, runFrom_throw, List.append_nil]

theorem steady_emit (found : List Event) : Steady (emit found) := by
  intro events
  rw [runFrom_emit, runFrom_emit, List.nil_append]

theorem steady_lookup (y : Except Inconsistency α) : Steady (lookup y) := by
  intro events
  rw [runFrom_lookup, runFrom_lookup, List.append_nil]

/-- Whatever is run aside, its events do not meet the others. -/
theorem steady_aside (x : Check Unit) : Steady (aside x) := by
  intro events
  rw [runFrom_aside, runFrom_aside]
  rcases x.runFrom [] with ⟨fault | -, found⟩
  · show _ = (_, events ++ [])
    rw [List.append_nil]
  · show _ = (_, events ++ [])
    rw [List.append_nil]

theorem Steady.bind {f : α → Check β} (hx : Steady x) (hf : ∀ a, Steady (f a)) :
    Steady (x >>= f) := by
  intro events
  rw [runFrom_bind, runFrom_bind, hx events]
  rcases x.runFrom [] with ⟨fault | a, found⟩
  · -- what was found before the break stays
    rfl
  · show (f a).runFrom (events ++ found)
      = (((f a).runFrom found).1, events ++ ((f a).runFrom found).2)
    rw [hf a (events ++ found), hf a found, List.append_assoc]

/-- What follows a check that breaks off is not run. -/
theorem bind_of_error {f : α → Check β} {events : List Event}
    {fault : Inconsistency} (h : (x.runFrom events).1 = .error fault) :
    ((x >>= f).runFrom events).1 = .error fault := by
  rw [runFrom_bind]
  rcases hrun : x.runFrom events with ⟨fault' | a, found⟩
  · rw [hrun] at h
    obtain rfl := Except.error.inj h
    rfl
  · rw [hrun] at h
    cases h

/-- A steady check that ends well from nothing ends well from anything. -/
theorem Steady.yields (hx : Steady x) {a : α} {found : List Event}
    (h : x.runFrom [] = (.ok a, found)) : Yields x a found := by
  intro events
  rw [hx events, h]

end Check

/-! ### Conditions are steady -/

namespace Condition

open Check

variable (m : CodeModel)

theorem steady_checkTarget (that : Predicate) (d : Dependency) :
    Steady (checkTarget m that d) := by
  refine (steady_lookup _).bind fun targetClass => ?_
  split
  · refine (steady_lookup _).bind fun origin => ?_
    refine (steady_lookup _).bind fun originClass => ?_
    refine (steady_lookup _).bind fun target => ?_
    exact (steady_emit _).bind fun _ => steady_pure true
  · exact steady_pure false

theorem steady_checkTargets (that : Predicate) (found : Bool)
    (ds : List Dependency) : Steady (checkTargets m that found ds) := by
  induction ds generalizing found with
  | nil => exact steady_pure found
  | cons d ds ih => exact (steady_checkTarget m that d).bind fun here => ih _

theorem steady_checkDependOn (that : Predicate) (e : Element) :
    Steady (checkDependOn m that e) := by
  refine (steady_checkTargets m that false _).bind fun found => ?_
  split
  · exact steady_emit _
  · exact steady_pure ()

/-- A single complaint, or none. -/
theorem steady_unless (p : Prop) [Decidable p] (subject : Subject)
    (message : String) : Steady (if p then pure () else violated subject message) := by
  split
  · exact steady_pure ()
  · exact steady_emit _

theorem steady_checkUsers (markers : List String) (complaint : String)
    (e : Element) : Steady (checkUsers m markers complaint e) :=
  (steady_lookup _).bind fun _ => steady_emit _

theorem steady_checkCall (marker : String) (e : Element) (call : Dependency) :
    Steady (checkCall m marker e call) := by
  refine (steady_lookup _).bind fun origin => ?_
  split
  · exact (steady_throw _).bind fun _ => (steady_lookup _).bind fun _ => steady_emit _
  · exact (steady_lookup _).bind fun _ => steady_emit _

theorem steady_checkCalls (marker : String) (e : Element)
    (calls : List Dependency) : Steady (checkCalls m marker e calls) := by
  induction calls with
  | nil => exact steady_pure ()
  | cons call calls ih => exact (steady_checkCall m marker e call).bind fun _ => ih

/-- No condition minds what was collected before it. -/
theorem steady_check (e : Element) (c : Condition) : Steady (c.check m e) := by
  induction c with
  | dependOn that => exact steady_checkDependOn m that e
  | publicEmptyConstructor => exact steady_unless _ _ _
  | voidWithoutParameters =>
    exact (steady_unless _ _ _).bind fun _ => steady_unless _ _ _
  | accessedOnlyBy marker => exact steady_checkUsers m _ _ e
  | accessedOnlyByAny markers => exact steady_checkUsers m _ _ e
  | accessedUnder marker => exact steady_checkCalls m marker e _
  | custom description findings =>
    refine (steady_emit _).bind fun _ => ?_
    split
    · exact steady_throw _
    · exact steady_pure ()
  | and c d ihc ihd => exact ihc.bind fun _ => ihd
  | or c d =>
    refine (steady_aside _).bind fun left => ?_
    exact (steady_aside _).bind fun right => steady_emit _
  | never c => exact (steady_aside _).bind fun events => steady_emit _
  | describedAs description c ih => exact ih

variable {m} {e : Element} {c : Condition}

/-- What a condition finds on an element when nothing was collected before. -/
def findings (m : CodeModel) (e : Element) (c : Condition) : Findings :=
  match (c.check m e).runFrom [] with
  | (.ok _, events) => { events }
  | (.error fault, events) => { events, fault := some fault }

/-- A check that meets no contradiction ends, and adds what it finds. -/
theorem yields_findings (h : (c.findings m e).fault = none) :
    Yields (c.check m e) () (c.findings m e).events := by
  rcases hrun : (c.check m e).runFrom [] with ⟨fault | u, found⟩
  · simp [findings, hrun] at h
  · simp only [findings, hrun]
    exact (steady_check m e c).yields hrun

/-- A check that meets a contradiction breaks off with it, wherever it comes in
the run. -/
theorem breaks_of_fault {fault : Inconsistency}
    (h : (c.findings m e).fault = some fault) (events : List Event) :
    ((c.check m e).runFrom events).1 = .error fault := by
  rw [steady_check m e c events]
  rcases hrun : (c.check m e).runFrom [] with ⟨fault' | u, found⟩
  · simpa [findings, hrun] using h
  · simp [findings, hrun] at h

end Condition

/-! ### Sweeping over the elements -/

namespace Rule

open Check

variable {r : Rule} {m : CodeModel} {config : Config}

/-- The elements a rule is about: those in its scope that have every property it
asks for, in the order of the model. -/
def subjects (r : Rule) (m : CodeModel) : List Element :=
  (r.scope.select m).filter fun e => r.filters.all fun p => p.holds m e

/-- What the rule's condition finds on one element by itself. -/
abbrev findingsOn (r : Rule) (m : CodeModel) (e : Element) : Findings :=
  r.condition.findings m e

/-- If no check breaks off, all selected elements are counted and all findings
are collected, in order. -/
theorem sweep_of_complete {es : List Element}
    (h : ∀ e ∈ es.filter (r.selects m), (r.findingsOn m e).fault = none)
    (checked : Nat) :
    Yields (r.sweep m checked es) (checked + (es.filter (r.selects m)).length)
      ((es.filter (r.selects m)).flatMap fun e => (r.findingsOn m e).events) := by
  induction es generalizing checked with
  | nil => exact yields_pure checked
  | cons e es ih =>
    unfold sweep
    by_cases he : r.selects m e = true
    · rw [List.filter_cons_of_pos he] at h ⊢
      obtain ⟨hfirst, hrest⟩ := List.forall_mem_cons.mp h
      rw [if_pos he, List.length_cons, List.flatMap_cons, ← Nat.add_assoc,
        Nat.add_right_comm]
      exact (Condition.yields_findings hfirst).bind (ih hrest (checked + 1))
    · rw [List.filter_cons_of_neg he] at h ⊢
      rw [if_neg he]
      exact ih h checked

/-- The first check that breaks off breaks off the run. -/
theorem sweep_of_fault {es before after : List Element} {e : Element}
    {fault : Inconsistency} (hes : es.filter (r.selects m) = before ++ e :: after)
    (hbefore : ∀ e' ∈ before, (r.findingsOn m e').fault = none)
    (he : (r.findingsOn m e).fault = some fault) (checked : Nat)
    (events : List Event) :
    ((r.sweep m checked es).runFrom events).1 = .error fault := by
  induction es generalizing before checked events with
  | nil => simp at hes
  | cons e' es ih =>
    unfold sweep
    by_cases hsel : r.selects m e' = true
    · rw [List.filter_cons_of_pos hsel] at hes
      rw [if_pos hsel]
      rcases before with - | ⟨e'', before⟩
      · -- the element whose check breaks off is the next one
        obtain ⟨rfl, -⟩ := List.cons.inj hes
        exact bind_of_error (Condition.breaks_of_fault he events)
      · obtain ⟨rfl, hrest⟩ := List.cons.inj hes
        obtain ⟨hfirst, hbefore⟩ := List.forall_mem_cons.mp hbefore
        rw [runFrom_bind, Condition.yields_findings hfirst]
        exact ih hrest hbefore _ _
    · rw [List.filter_cons_of_neg hsel] at hes
      rw [if_neg hsel]
      exact ih hes hbefore checked events

theorem run_of_complete (h : ∀ e ∈ r.subjects m, (r.findingsOn m e).fault = none) :
    r.run m = .ok ((r.subjects m).length,
      (r.subjects m).flatMap fun e => (r.findingsOn m e).events) := by
  unfold run
  rw [sweep_of_complete h 0 [], Nat.zero_add]
  rfl

theorem run_of_fault {before after : List Element} {e : Element}
    {fault : Inconsistency} (hsubjects : r.subjects m = before ++ e :: after)
    (hbefore : ∀ e' ∈ before, (r.findingsOn m e').fault = none)
    (he : (r.findingsOn m e).fault = some fault) : r.run m = .error fault := by
  have hbreak := sweep_of_fault hsubjects hbefore he 0 []
  unfold run
  rcases hrun : (r.sweep m 0 (r.scope.select m)).runFrom [] with ⟨fault' | n, found⟩
  · rw [hrun] at hbreak
    obtain rfl := Except.error.inj hbreak
    rfl
  · rw [hrun] at hbreak
    cases hbreak

/-! ### The result of a rule -/

/-- Whether the rule may select nothing.  If the rule says so itself, that
counts; else what its table in the configuration says; else what the
configuration says of all rules. -/
def emptyAllowed (r : Rule) (config : Config) : Bool :=
  match r.allowEmpty, config.rule? r.key with
  | some said, _ => said
  | none, some { allowEmpty := some said, .. } => said
  | none, _ => !config.failOnEmpty

theorem mayBeEmpty_eq (r : Rule) (config : Config) :
    r.mayBeEmpty config = r.emptyAllowed config := by
  unfold mayBeEmpty emptyAllowed Config.allowEmpty?
  rcases r.allowEmpty with - | said
  · rcases config.rule? r.key with - | ⟨enabled, - | said, priority⟩
    · rfl
    · rfl
    · rfl
  · rfl

/-- The verdict sums up what is found on the selected elements. -/
structure SumsUp (r : Rule) (m : CodeModel) (config : Config) (v : Verdict) :
    Prop where
  rule_eq : v.rule = r.description
  name_eq : v.name = r.name
  /-- The configured priority, or else the rule's own. -/
  priority_eq : v.priority = (config.priority? r.key).getD r.priority
  checked_eq : v.checked = (r.subjects m).length
  events_eq : v.events
    = (r.subjects m).flatMap fun e => (r.findingsOn m e).events
  violationCount_eq : v.violationCount
    = v.events.countP fun event => event.outcome == .violated

/-- The result of a rule, told from the findings on each element by itself. -/
inductive ComesTo (r : Rule) (m : CodeModel) (config : Config) :
    Except EvaluationError Verdict → Prop where
  /-- The check of an element breaks off, and of none before it. -/
  | broken {before after : List Element} {e : Element} {fault : Inconsistency}
      (subjects_eq : r.subjects m = before ++ e :: after)
      (complete : ∀ e' ∈ before, (r.findingsOn m e').fault = none)
      (breaks : (r.findingsOn m e).fault = some fault) :
      ComesTo r m config (.error (.inconsistent r.description fault))
  /-- There is nothing to check, and there should be. -/
  | empty (subjects_eq : r.subjects m = [])
      (forbidden : r.emptyAllowed config = false) :
      ComesTo r m config (.error (.emptySelection r.description r.scope.noun))
  /-- Every check comes to its end. -/
  | verdict {v : Verdict}
      (complete : ∀ e ∈ r.subjects m, (r.findingsOn m e).fault = none)
      (allowed : r.subjects m = [] → r.emptyAllowed config = true)
      (sumsUp : r.SumsUp m config v) : ComesTo r m config (.ok v)

/-- The findings on all selected elements as a verdict. -/
def tally (r : Rule) (m : CodeModel) (config : Config) : Verdict where
  rule := r.description
  name := r.name
  priority := (config.priority? r.key).getD r.priority
  checked := (r.subjects m).length
  events := (r.subjects m).flatMap fun e => (r.findingsOn m e).events

theorem sumsUp_tally (r : Rule) (m : CodeModel) (config : Config) :
    r.SumsUp m config (r.tally m config) :=
  ⟨rfl, rfl, rfl, rfl, rfl, Verdict.violationCount_eq_countP _⟩

/-- There is only one verdict that sums the findings up. -/
theorem SumsUp.eq_tally {v : Verdict} (h : r.SumsUp m config v) :
    v = r.tally m config := by
  obtain ⟨rule, name, priority, checked, events⟩ := v
  obtain ⟨rfl, rfl, rfl, rfl, rfl, -⟩ := h
  rfl

/-- A rule comes to something on every model. -/
theorem exists_comesTo (r : Rule) (m : CodeModel) (config : Config) :
    ∃ result, r.ComesTo m config result := by
  rcases hfind : (r.subjects m).find? (fun e => (r.findingsOn m e).fault.isSome)
    with - | e
  · have hcomplete : ∀ e ∈ r.subjects m, (r.findingsOn m e).fault = none := by
      simpa using hfind
    by_cases hempty : r.subjects m = [] ∧ r.emptyAllowed config = false
    · exact ⟨_, .empty hempty.1 hempty.2⟩
    · have hallowed : r.subjects m = [] → r.emptyAllowed config = true := by
        intro hnil
        by_contra hno
        exact hempty ⟨hnil, Bool.eq_false_iff.mpr hno⟩
      exact ⟨_, .verdict hcomplete hallowed (sumsUp_tally r m config)⟩
  · obtain ⟨he, before, after, hsubjects, hbefore⟩ :=
      List.find?_eq_some_iff_append.mp hfind
    obtain ⟨fault, hfault⟩ := Option.isSome_iff_exists.mp he
    refine ⟨_, .broken hsubjects ?_ hfault⟩
    simpa using hbefore

/-- What a rule comes to is what its evaluation gives. -/
theorem ComesTo.evaluate_eq {result : Except EvaluationError Verdict}
    (h : r.ComesTo m config result) : r.evaluate m config = result := by
  unfold evaluate
  cases h with
  | broken hsubjects hbefore hbreaks =>
    rw [run_of_fault hsubjects hbefore hbreaks]
  | empty hsubjects hforbidden =>
    have hcomplete : ∀ e ∈ r.subjects m, (r.findingsOn m e).fault = none := by
      simp [hsubjects]
    rw [run_of_complete hcomplete, hsubjects, mayBeEmpty_eq, hforbidden]
    rfl
  | verdict hcomplete hallowed hsums =>
    rw [run_of_complete hcomplete, mayBeEmpty_eq, hsums.eq_tally]
    refine if_neg ?_
    rw [Bool.and_eq_true, decide_eq_true_iff, List.length_eq_zero_iff]
    rintro ⟨hnil, hno⟩
    rw [hallowed hnil] at hno
    cases hno

/-- **A rule is evaluated element by element.**  On every model and under every
configuration, evaluation gives the result that the findings on each selected
element by itself amount to: the contradiction that the first element to meet
one has met, else an empty selection where none is allowed, else the verdict
that sums the findings up.  The rule holds if that verdict has no violation. -/
theorem evaluate_iff_comesTo (r : Rule) (m : CodeModel) (config : Config) :
    (∀ result, r.evaluate m config = result ↔ r.ComesTo m config result)
    ∧ (r.check m config = .ok () ↔ ∃ v, r.ComesTo m config (.ok v)
      ∧ ∀ event ∈ v.events, event.outcome ≠ .violated) := by
  have hiff : ∀ result, r.evaluate m config = result ↔ r.ComesTo m config result := by
    intro result
    refine ⟨?_, ComesTo.evaluate_eq⟩
    rintro rfl
    obtain ⟨result, hresult⟩ := r.exists_comesTo m config
    rw [hresult.evaluate_eq]
    exact hresult
  refine ⟨hiff, ?_⟩
  rw [check_eq_ok_iff]
  simp only [hiff, Verdict.passed_iff]

end Rule

end Conformance
