/-
Conformance/Proofs/Negations.lean

Negation obeys its laws, in whole runs of rules.

`never` runs its condition aside, so that a break leaves no events behind, while
`and` keeps what its first part found.  Hence no law holds of single checks: where
something breaks off, `never (never c)` leaves fewer events than `c`.  A run does
not show that, for it hands on no events if it breaks off.

What counts of findings is therefore the contradiction, or else the events.
`Findings.Renders φ` relates findings that agree in the former and, if there is
none, have the latter changed by `φ`.  Negated findings render the findings, with
outcomes flipped, and so do negated findings put one after the other
(`renders_never`, `renders_and`).  A rule whose findings render those of another
comes to the same, its events changed in that way (`Rule.run_of_renders`).
-/
import Conformance.FirstSeen
import Conformance.Proofs.FreshRuns

namespace Conformance

/-! ### Flipped events -/

namespace Event

@[simp] theorem map_flip_flip (events : List Event) :
    (events.map flip).map flip = events := by
  simp [Function.comp_def, flip_flip]

/-- Of an event and its opposite, one is a violation. -/
theorem isViolation_flip (event : Event) :
    event.flip.isViolation = !event.isViolation := by
  rcases event with ⟨subject, outcome, message⟩
  cases outcome <;> rfl

/-- The violations among events, and those among their opposites, are as many as
there are events. -/
theorem violationCount_add_flip (events : List Event) :
    violationCount events + violationCount (events.map flip) = events.length := by
  have hflip : isViolation ∘ flip = fun event => !event.isViolation := by
    funext event
    exact isViolation_flip event
  rw [violationCount_eq_countP, violationCount_eq_countP, List.countP_map, hflip,
    List.length_eq_countP_add_countP isViolation]
  simp

end Event

/-! ### Findings that render others -/

namespace Findings

/-- The findings break off with the same contradiction, or else have the events
of the others, changed by `φ`. -/
structure Renders (φ : Event → Event) (g f : Findings) : Prop where
  fault_eq : g.fault = f.fault
  events_eq : f.fault = none → g.events = f.events.map φ

end Findings

namespace Condition

open Check

variable {m : CodeModel} {e : Element} {φ : Event → Event} {c c' d d' : Condition}

/-- A negated condition that breaks off leaves the events as they were. -/
theorem runFrom_never (c : Condition) (m : CodeModel) (e : Element)
    (events : List Event) :
    ((never c).check m e).runFrom events
      = match (c.findings m e).fault with
        | some fault => (.error fault, events)
        | none => (.ok (), events ++ (c.findings m e).events.map Event.flip) := by
  rw [check, runFrom_bind, runFrom_aside, findings]
  rcases (c.check m e).runFrom [] with ⟨fault | -, found⟩ <;> rfl

/-- Negating a condition flips what it finds. -/
theorem renders_never (c : Condition) (m : CodeModel) (e : Element) :
    ((never c).findings m e).Renders Event.flip (c.findings m e) := by
  refine ⟨?_, fun hnone => ?_⟩
  · rw [findings, runFrom_never]
    cases (c.findings m e).fault <;> rfl
  · rw [findings, runFrom_never, hnone]
    rfl

/-- What the second of two conditions finds comes after what the first finds, if
that does not break off. -/
theorem findings_and (c d : Condition) (m : CodeModel) (e : Element) :
    (and c d).findings m e
      = match (c.findings m e).fault with
        | some _ => c.findings m e
        | none =>
          { events := (c.findings m e).events ++ (d.findings m e).events
            fault := (d.findings m e).fault } := by
  simp only [findings, check, runFrom_bind]
  rcases (c.check m e).runFrom [] with ⟨fault | -, found⟩
  · rfl
  · -- the second goes on from the events of the first, and does not mind them
    dsimp only
    rw [steady_check m e d found]
    rcases (d.check m e).runFrom [] with ⟨fault | -, found'⟩ <;> rfl

theorem fault_and (c d : Condition) (m : CodeModel) (e : Element) :
    ((and c d).findings m e).fault
      = (c.findings m e).fault.or (d.findings m e).fault := by
  rw [findings_and]
  rcases hc : (c.findings m e).fault with - | fault
  · rfl
  · exact hc

theorem events_and (hc : (c.findings m e).fault = none) :
    ((and c d).findings m e).events
      = (c.findings m e).events ++ (d.findings m e).events := by
  rw [findings_and, hc]

/-- Two conditions are rendered by rendering each. -/
theorem renders_and (hc : (c'.findings m e).Renders φ (c.findings m e))
    (hd : (d'.findings m e).Renders φ (d.findings m e)) :
    ((and c' d').findings m e).Renders φ ((and c d).findings m e) := by
  refine ⟨?_, fun hnone => ?_⟩
  · rw [fault_and, fault_and, hc.fault_eq, hd.fault_eq]
  · rw [fault_and, Option.or_eq_none_iff] at hnone
    rw [events_and hnone.1, events_and (hc.fault_eq.trans hnone.1), hc.events_eq hnone.1,
      hd.events_eq hnone.2, List.map_append]

/-- A change that commutes with flipping can be made before negating or after. -/
theorem renders_never_of_renders (hφ : ∀ event, φ event.flip = (φ event).flip)
    (h : (c'.findings m e).Renders φ (c.findings m e)) :
    ((never c').findings m e).Renders φ ((never c).findings m e) := by
  have hc := renders_never c m e
  have hc' := renders_never c' m e
  refine ⟨?_, fun hnone => ?_⟩
  · rw [hc'.fault_eq, h.fault_eq, hc.fault_eq]
  · rw [hc.fault_eq] at hnone
    rw [hc'.events_eq (h.fault_eq.trans hnone), h.events_eq hnone, hc.events_eq hnone]
    simp [hφ]

end Condition

/-! ### Runs -/

/-- What a run comes to with each event changed. -/
def renderRun (φ : Event → Event) (run : Nat × List Event) : Nat × List Event :=
  (run.1, run.2.map φ)

/-- Flipped twice, a run is what it was. -/
theorem renderRun_flip_flip (run : Except Inconsistency (Nat × List Event)) :
    (run.map (renderRun Event.flip)).map (renderRun Event.flip) = run := by
  rcases run with fault | ⟨n, events⟩
  · rfl
  · show Except.ok (n, (events.map Event.flip).map Event.flip) = _
    rw [Event.map_flip_flip]

namespace Rule

variable {m : CodeModel} {φ : Event → Event}

/-- On the same subjects, findings that render those of another rule make up a
run that renders its run. -/
theorem run_of_renders (r' r : Rule) (hsubjects : r'.subjects m = r.subjects m)
    (h : ∀ e, (r'.findingsOn m e).Renders φ (r.findingsOn m e)) :
    r'.run m = (r.run m).map (renderRun φ) := by
  rcases forall_or_first (fun e => (r.findingsOn m e).fault = none) (r.subjects m) with
    hcomplete | ⟨before, e, after, hes, hbefore, he⟩
  · have hcomplete' : ∀ e ∈ r'.subjects m, (r'.findingsOn m e).fault = none := by
      intro e he
      rw [(h e).fault_eq]
      exact hcomplete e (hsubjects ▸ he)
    rw [run_of_complete hcomplete, run_of_complete hcomplete', hsubjects]
    show _ = Except.ok (_, (List.flatMap _ _).map φ)
    rw [List.map_flatMap]
    refine congrArg (fun events => Except.ok (_, events)) (List.flatMap_congr ?_)
    exact fun e he => (h e).events_eq (hcomplete e he)
  · -- both runs end at the same element, and no event gets out of either
    obtain ⟨fault, hfault⟩ := Option.ne_none_iff_exists'.mp he
    have hbefore' : ∀ e' ∈ before, (r'.findingsOn m e').fault = none :=
      fun e' he' => (h e').fault_eq.trans (hbefore e' he')
    rw [run_of_fault hes hbefore hfault, run_of_fault (hsubjects.trans hes) hbefore'
      ((h e).fault_eq.trans hfault)]
    rfl

end Rule

namespace Selection

variable {m : CodeModel} {c c' : Condition}

/-- With conditions of which one renders the other, a selection gives runs of which
one renders the other, also if it negates both. -/
theorem run_should_of_renders (s : Selection)
    (h : ∀ e, (c'.findings m e).Renders Event.flip (c.findings m e)) :
    (s.should c').run m = ((s.should c).run m).map (renderRun Event.flip) := by
  refine Rule.run_of_renders (s.should c') (s.should c) rfl fun e => ?_
  show (Condition.findings m e (if s.negated then .never c' else c')).Renders Event.flip
    (Condition.findings m e (if s.negated then .never c else c))
  split
  · exact Condition.renders_never_of_renders (fun _ => rfl) (h e)
  · exact h e

theorem run_should_never (s : Selection) (c : Condition) (m : CodeModel) :
    (s.should (.never c)).run m = ((s.should c).run m).map (renderRun Event.flip) :=
  s.run_should_of_renders (Condition.renders_never c m)

/-- Where none of the elements should meet a condition, the negated condition is
checked. -/
theorem run_should_negated (s : Selection) (c : Condition) (m : CodeModel) :
    ({ s with negated := true }.should c).run m
      = (({ s with negated := false }.should c).run m).map (renderRun Event.flip) :=
  Rule.run_of_renders _ _ rfl (Condition.renders_never c m)

/-- **Negation obeys its laws in whole runs.**  On every model, for every selection
and all conditions: negating twice changes nothing; negating two conditions
together is negating each; asking that none of the elements fails to meet a
condition is asking that they meet it; and if a run comes to its end, the negated
run does so too, with as many elements selected, the same subjects and messages
in the same order, and each event violated in one of the two runs.  A negated
condition that breaks off adds nothing to the events. -/
theorem negation_laws (m : CodeModel) (s : Selection) (a b c : Condition) :
    (s.should (.never (.never c))).run m = (s.should c).run m
    ∧ (s.should (.never (.and a b))).run m
      = (s.should (.and (.never a) (.never b))).run m
    ∧ ({ s with negated := true }.should (.never c)).run m
      = ({ s with negated := false }.should c).run m
    ∧ (∀ n events, (s.should c).run m = .ok (n, events) →
      ∃ events', (s.should (.never c)).run m = .ok (n, events')
        ∧ events'.map (·.subject) = events.map (·.subject)
        ∧ events'.map (·.message) = events.map (·.message)
        ∧ Event.violationCount events + Event.violationCount events'
          = events.length)
    ∧ ∀ e events fault found,
      (Condition.check m e (.never c)).runFrom events = (.error fault, found) →
        found = events := by
  refine ⟨?_, ?_, ?_, ?_, ?_⟩
  · rw [run_should_never, run_should_never, renderRun_flip_flip]
  · rw [run_should_never]
    symm
    apply run_should_of_renders
    intro e
    exact Condition.renders_and (Condition.renders_never a m e)
      (Condition.renders_never b m e)
  · rw [run_should_negated, run_should_never, renderRun_flip_flip]
  · intro n events hrun
    refine ⟨events.map Event.flip, ?_, ?_, ?_, Event.violationCount_add_flip events⟩
    · rw [run_should_never, hrun]
      rfl
    · rw [List.map_map]
      rfl
    · rw [List.map_map]
      rfl
  · intro e events fault found hrun
    rw [Condition.runFrom_never] at hrun
    rcases hfault : (c.findings m e).fault with - | fault'
    · rw [hfault] at hrun
      cases hrun
    · rw [hfault] at hrun
      exact (Prod.mk.inj hrun).2.symm

/-- A house that stands. -/
def cottage : Element where
  id := 0
  kind := .type
  name := "Cottage"
  fullName := "a.Cottage"

/-- A house that does not. -/
def tower : Element where
  id := 1
  kind := .type
  name := "Tower"
  fullName := "a.Tower"

/-- The two houses, and nothing else. -/
def street : CodeModel where
  classes := [cottage, tower]
  element? _ := none
  classNamed? _ := none
  membersOf _ := []
  dependencies := []

/-- Tells of each house whether it stands; the check of one with a given id breaks
off after that. -/
def inspection (sealed : Option ElementId) : Condition :=
  .custom "stand" fun _ e =>
    { events := [⟨.element e.id, if e.id = 0 then .satisfied else .violated, e.name⟩]
      fault := if some e.id = sealed then some (.unknownElement e.id) else none }

/-- One house stands and the other does not, and the other way round if houses are
not to stand.  Where the check of the tower breaks off, what was said of it is
lost. -/
theorem street_negation_laws :
    (classes.should (inspection none)).run street
      = .ok (2, [.satisfied (.element 0) "Cottage", .violated (.element 1) "Tower"])
    ∧ (∃ events', (classes.should (.never (inspection none))).run street = .ok (2, events')
      ∧ events'.map (·.message) = ["Cottage", "Tower"]
      ∧ 1 + Event.violationCount events' = 2)
    ∧ ∃ found, (Condition.check street tower (.never (inspection (some 1)))).runFrom []
        = (.error (.unknownElement 1), found)
      ∧ found = [] := by
  refine ⟨rfl, ?_, _, rfl, ?_⟩
  · obtain ⟨-, -, -, hruns, -⟩ := negation_laws street classes (inspection none)
      (inspection none) (inspection none)
    obtain ⟨events', hrun, -, hmessages, hcounts⟩ := hruns 2 _ rfl
    exact ⟨events', hrun, hmessages, hcounts⟩
  · obtain ⟨-, -, -, -, hbreaks⟩ := negation_laws street classes (inspection none)
      (inspection none) (inspection (some 1))
    exact hbreaks tower [] _ _ rfl

-- in a single check that breaks off, negating twice does make a difference
example :
    ((inspection (some 1)).check street tower).runFrom []
        = (.error (.unknownElement 1), [.violated (.element 1) "Tower"])
      ∧ (Condition.check street tower (.never (.never (inspection (some 1))))).runFrom []
        = (.error (.unknownElement 1), []) := ⟨rfl, rfl⟩

end Selection

end Conformance
