/-
Conformance/Proofs/Checks.lean

How checks and rules come out.

A check that comes to its end adds the same events whatever was collected
before it.  `Yields x a found` says so of a check with outcome `a` and events
`found`; what a compound check yields is put together from its parts
(`Yields.bind`, `Yields.aside`).  `Ends x` leaves open what the outcome and the
events are.  The built-in checks that follow dependencies are made of such steps,
one for each dependency (`Condition.yields_checkTarget`,
`Condition.yields_checkCall`).

Of the events, reports show the messages of the violations: the complaints.  A
rule complains of what its condition complains of on the selected elements, one
after the other (`Rule.run_of_complains`).  That, with the number of selected
elements, is all that tells two verdicts of a rule apart
(`Rule.evaluate_alike`).
-/
import Mathlib.Data.List.Forall2
import Conformance.Rule

namespace Conformance

/-! ### Complaints -/

/-- What is listed for the entries that lack a property is listed for those that
are left without the others. -/
theorem flatMap_unless {α β : Type} (p : α → Bool) (f : α → β) (as : List α) :
    (as.flatMap fun a => if p a then [] else [f a])
      = (as.filter fun a => !p a).map f := by
  induction as with
  | nil => rfl
  | cons a as ih =>
    rw [List.flatMap_cons, ih, List.filter_cons]
    cases p a with
    | false => rfl
    | true => rfl

namespace Event

/-- The messages of the violations among events, in order. -/
def complaints (events : List Event) : List String :=
  (violations events).map (·.message)

theorem complaints_append (events events' : List Event) :
    complaints (events ++ events') = complaints events ++ complaints events' := by
  simp [complaints, violations]

theorem complaints_map_violated {α : Type} (subject : α → Subject)
    (message : α → String) (as : List α) :
    complaints (as.map fun a => .violated (subject a) (message a))
      = as.map message := by
  induction as with
  | nil => rfl
  | cons a as ih => exact congrArg (message a :: ·) ih

theorem violationCount_eq_countP (events : List Event) :
    violationCount events = events.countP isViolation :=
  List.countP_eq_length_filter.symm

end Event

namespace Verdict

theorem violationCount_eq_countP (v : Verdict) :
    v.violationCount = v.events.countP fun event => event.outcome == .violated :=
  Event.violationCount_eq_countP v.events

/-- A rule holds if no event is a violation. -/
theorem passed_iff (v : Verdict) :
    v.passed = true ↔ ∀ event ∈ v.events, event.outcome ≠ .violated := by
  show (v.violationCount == 0) = true ↔ _
  rw [beq_iff_eq, violationCount_eq_countP, List.countP_eq_zero]
  simp only [beq_iff_eq]

end Verdict

/-! ### Checks -/

namespace Check

variable {α β : Type} {x : Check α} {a : α} {found : List Event}

/-- The check ends with outcome `a` and adds the events `found`. -/
def Yields (x : Check α) (a : α) (found : List Event) : Prop :=
  ∀ events, x.runFrom events = (.ok a, events ++ found)

theorem yields_pure (a : α) : Yields (pure a) a [] := by
  intro events
  rw [runFrom_pure, List.append_nil]

theorem yields_emit (found : List Event) : Yields (emit found) () found := by
  intro events
  exact runFrom_emit events found

theorem yields_lookup (a : α) : Yields (lookup (.ok a)) a [] := by
  intro events
  rw [runFrom_lookup, List.append_nil]

theorem Yields.bind {f : α → Check β} {c : β} {found' : List Event}
    (hx : Yields x a found) (hf : Yields (f a) c found') :
    Yields (x >>= f) c (found ++ found') := by
  intro events
  rw [runFrom_bind, hx events]
  show (f a).runFrom (events ++ found) = _
  rw [hf, List.append_assoc]

/-- What a check run aside adds is handed on. -/
theorem Yields.aside {x : Check Unit} (h : Yields x () found) :
    Yields (Check.aside x) found [] := by
  intro events
  rw [runFrom_aside, h [], List.nil_append, List.append_nil]

/-- A lookup that succeeds makes way for what follows. -/
theorem Yields.after_lookup {f : α → Check β} {c : β}
    {y : Except Inconsistency α} (hy : y = .ok a) (hf : Yields (f a) c found) :
    Yields (lookup y >>= f) c found := by
  subst hy
  exact (yields_lookup a).bind hf

/-- The check does not break off, whatever was collected before it. -/
def Ends (x : Check α) : Prop :=
  ∃ a found, Yields x a found

theorem ends_pure (a : α) : Ends (pure a) :=
  ⟨a, [], yields_pure a⟩

theorem ends_emit (found : List Event) : Ends (emit found) :=
  ⟨(), found, yields_emit found⟩

theorem ends_unless (p : Prop) [Decidable p] (subject : Subject)
    (message : String) : Ends (if p then pure () else violated subject message) := by
  split
  · exact ends_pure ()
  · exact ends_emit _

theorem Ends.bind {f : α → Check β} (hx : Ends x) (hf : ∀ a, Ends (f a)) :
    Ends (x >>= f) := by
  obtain ⟨a, found, hfound⟩ := hx
  obtain ⟨c, found', hfound'⟩ := hf a
  exact ⟨c, found ++ found', hfound.bind hfound'⟩

theorem Ends.aside {x : Check Unit} (hx : Ends x) : Ends (Check.aside x) := by
  obtain ⟨u, found, hfound⟩ := hx
  exact ⟨found, [], Yields.aside hfound⟩

theorem Ends.after_lookup {f : α → Check β} {y : Except Inconsistency α}
    (hy : y = .ok a) (hf : Ends (f a)) : Ends (lookup y >>= f) := by
  obtain ⟨c, found, hfound⟩ := hf
  exact ⟨c, found, .after_lookup hy hfound⟩

/-- The check ends well, and its violations are these. -/
def Complains (x : Check Unit) (messages : List String) : Prop :=
  ∃ found, Yields x () found ∧ Event.complaints found = messages

theorem complains_pure : Complains (pure ()) [] :=
  ⟨[], yields_pure (), rfl⟩

theorem complains_unless (p : Prop) [Decidable p] (subject : Subject)
    (message : String) :
    Complains (if p then pure () else violated subject message)
      (if p then [] else [message]) := by
  split
  · exact complains_pure
  · exact ⟨_, yields_emit _, rfl⟩

theorem Complains.seq {x : Check Unit} {f : Unit → Check Unit}
    {messages messages' : List String} (hx : Complains x messages)
    (hf : Complains (f ()) messages') :
    Complains (x >>= f) (messages ++ messages') := by
  obtain ⟨found, hfound, rfl⟩ := hx
  obtain ⟨found', hfound', rfl⟩ := hf
  exact ⟨_, hfound.bind hfound', Event.complaints_append _ _⟩

end Check

/-! ### Following a dependency -/

namespace Condition

open Check

variable {m : CodeModel} {d : Dependency}
  {origin originClass target targetClass : Element}

/-- A dependency whose ends are found is told of if its target's type has the
property. -/
theorem yields_checkTarget (htargetClass : m.resolve d.targetClass = .ok targetClass)
    (horigin : m.resolve d.origin = .ok origin)
    (horiginClass : m.resolve d.originClass = .ok originClass)
    (htarget : m.resolve d.target = .ok target) (that : Predicate) :
    Yields (checkTarget m that d) (that.holds m targetClass)
      (if that.holds m targetClass
        then [.satisfied (.edge d.id) (d.describe origin originClass target)]
        else []) := by
  refine .after_lookup htargetClass ?_
  split
  · rename_i hthat
    rw [hthat]
    refine .after_lookup horigin ?_
    refine .after_lookup horiginClass ?_
    refine .after_lookup htarget ?_
    exact (yields_emit _).bind (yields_pure true)
  · rename_i hthat
    rw [Bool.not_eq_true] at hthat
    rw [hthat]
    exact yields_pure false

/-- An access that is made by code is judged with the type of that code. -/
theorem yields_checkCall (horigin : m.resolve d.origin = .ok origin)
    (hcode : origin.kind.isCodeUnit = true)
    (howner : m.ownerOf origin = .ok originClass) (marker : String) (e : Element) :
    Yields (checkCall m marker e d) () [judgeCall marker e d origin originClass] := by
  refine .after_lookup horigin ?_
  -- an origin that holds no code would break the check off here
  rw [hcode]
  exact .after_lookup howner (yields_emit _)

/-- The types in which dependencies start are found if each of them is. -/
theorem resolveOrigins_eq_ok {ds : List Dependency} {es : List Element}
    (h : List.Forall₂ (fun d e => m.resolve d.originClass = .ok e) ds es) :
    resolveOrigins m ds = .ok es := by
  induction h with
  | nil => rfl
  | cons hd _ ih =>
    rw [resolveOrigins, hd, ih]
    rfl

end Condition

/-! ### Rules -/

namespace Rule

open Check

variable {r r' : Rule} {m m' : CodeModel} {σ : Type} {R : σ → Element → Prop}
  {selected : σ → Bool} {messages : σ → List String}

/-- A rule complains of what its condition complains of on the elements it
selects, in order.  What the elements stand for may be anything. -/
theorem sweep_of_complains {subjects : List σ} {es : List Element}
    (hR : List.Forall₂ R subjects es)
    (hsel : ∀ s e, R s e → r.selects m e = selected s)
    (h : ∀ s e, R s e → selected s = true →
      Complains (r.condition.check m e) (messages s)) (checked : Nat) :
    ∃ found, Yields (r.sweep m checked es)
        (checked + (subjects.filter selected).length) found
      ∧ Event.complaints found = (subjects.filter selected).flatMap messages := by
  induction hR generalizing checked with
  | nil => exact ⟨[], yields_pure _, rfl⟩
  | @cons s e subjects es hse _ ih =>
    rw [sweep, hsel s e hse]
    by_cases hs : selected s = true
    · obtain ⟨found, hfound, hmessages⟩ := h s e hse hs
      obtain ⟨found', hfound', hmessages'⟩ := ih (checked + 1)
      refine ⟨found ++ found', ?_, ?_⟩
      · rw [if_pos hs, List.filter_cons_of_pos hs, List.length_cons,
          ← Nat.add_assoc, Nat.add_right_comm]
        exact hfound.bind hfound'
      · rw [List.filter_cons_of_pos hs, List.flatMap_cons,
          Event.complaints_append, hmessages, hmessages']
    · rw [if_neg hs, List.filter_cons_of_neg hs]
      exact ih checked

theorem run_of_complains {subjects : List σ}
    (hR : List.Forall₂ R subjects (r.scope.select m))
    (hsel : ∀ s e, R s e → r.selects m e = selected s)
    (h : ∀ s e, R s e → selected s = true →
      Complains (r.condition.check m e) (messages s)) :
    ∃ events, r.run m = .ok ((subjects.filter selected).length, events)
      ∧ Event.complaints events = (subjects.filter selected).flatMap messages := by
  obtain ⟨found, hfound, hmessages⟩ := sweep_of_complains hR hsel h 0
  refine ⟨found, ?_, hmessages⟩
  rw [run, hfound [], Nat.zero_add, List.nil_append]

/-- A run is what is selected and what is checked, whatever else is said about
the rule. -/
theorem run_congr (hscope : r'.scope.select m' = r.scope.select m)
    (hselects : ∀ e, r'.selects m' e = r.selects m e)
    (hcheck : ∀ e, r'.condition.check m' e = r.condition.check m e) :
    r'.run m' = r.run m := by
  have hsweep : ∀ es checked, r'.sweep m' checked es = r.sweep m checked es := by
    intro es
    induction es with
    | nil => exact fun _ => rfl
    | cons e es ih =>
      intro checked
      simp only [sweep, hselects, hcheck, ih]
  rw [run, run, hscope, hsweep]

/-- Where a rule selects as many elements of two models, either they are none
and the rule is not allowed that, or there are two verdicts. -/
theorem evaluate_alike {config : Config} {n : Nat} {events events' : List Event}
    (h : r.run m = .ok (n, events)) (h' : r.run m' = .ok (n, events')) :
    (r.evaluate m config = .error (.emptySelection r.description r.scope.noun)
      ∧ r.evaluate m' config
        = .error (.emptySelection r.description r.scope.noun))
    ∨ ∃ v v', r.evaluate m config = .ok v ∧ r.evaluate m' config = .ok v'
      ∧ v.checked = v'.checked ∧ v.events = events ∧ v'.events = events' := by
  simp only [evaluate, h, h']
  by_cases hempty : (n = 0 && !r.mayBeEmpty config) = true
  · rw [if_pos hempty, if_pos hempty]
    exact Or.inl ⟨rfl, rfl⟩
  · rw [if_neg hempty, if_neg hempty]
    exact Or.inr ⟨_, _, rfl, rfl, rfl, rfl, rfl⟩

theorem check_of_error {config : Config} {error : EvaluationError}
    (h : r.evaluate m config = .error error) : r.check m config = .error error := by
  rw [check, h]
  rfl

theorem check_of_ok {config : Config} {v : Verdict}
    (h : r.evaluate m config = .ok v) :
    r.check m config = if v.passed then .ok ()
      else .error (.violated v.rule v.violationCount v.report) := by
  rw [check, h]
  rfl

/-- A rule holds if it has a verdict, and that is in its favour. -/
theorem check_eq_ok_iff {config : Config} :
    r.check m config = .ok ()
      ↔ ∃ v, r.evaluate m config = .ok v ∧ v.passed = true := by
  rcases h : r.evaluate m config with error | v
  · simp [check_of_error h]
  · by_cases hv : v.passed = true
    · simp [check_of_ok h, hv]
    · simp [check_of_ok h, hv]

end Rule

end Conformance
