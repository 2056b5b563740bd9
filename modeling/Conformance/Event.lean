/-
Conformance/Event.lean

Events: what checking a condition finds out.  An event says of one subject,
an element or a dependency, that it satisfies or violates a condition, and
why.  A subject that no event speaks of conforms.
-/
import Conformance.Dependency

namespace Conformance

/-- What an event is about. -/
inductive Subject where
  | element (id : ElementId)
  | edge (id : EdgeId)
  deriving DecidableEq, Repr

/-- How a subject fares. -/
inductive Outcome where
  | satisfied
  | violated
  deriving DecidableEq, Repr

/-- The other outcome. -/
def Outcome.flip : Outcome → Outcome
  | .satisfied => .violated
  | .violated => .satisfied

/-- The word for an outcome in reports. -/
def Outcome.label : Outcome → String
  | .satisfied => "SATISFIED"
  | .violated => "VIOLATED"

/-- A finding about a subject. -/
structure Event where
  subject : Subject
  outcome : Outcome
  message : String
  deriving DecidableEq, Repr

namespace Event

/-- The subject satisfies the condition. -/
def satisfied (subject : Subject) (message : String) : Event :=
  ⟨subject, .satisfied, message⟩

/-- The subject violates the condition. -/
def violated (subject : Subject) (message : String) : Event :=
  ⟨subject, .violated, message⟩

/-- Whether the event is a violation. -/
def isViolation (e : Event) : Bool :=
  e.outcome == .violated

/-- The same finding for the opposite condition. -/
def flip (e : Event) : Event :=
  { e with outcome := e.outcome.flip }

/-- The violations among events, in order. -/
def violations (events : List Event) : List Event :=
  events.filter isViolation

/-- How many of the events are violations. -/
def violationCount (events : List Event) : Nat :=
  (violations events).length

end Event

/-- Flipping twice changes nothing. -/
theorem Outcome.flip_flip (o : Outcome) : o.flip.flip = o := by
  cases o <;> rfl

/-- Flipping twice changes nothing. -/
theorem Event.flip_flip (e : Event) : e.flip.flip = e := by
  simp [Event.flip, Outcome.flip_flip]

end Conformance
