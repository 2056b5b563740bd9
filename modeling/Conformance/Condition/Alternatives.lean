/-
Conformance/Condition/Alternatives.lean

Joining the findings of alternatives.  When one of several conditions is
enough, a subject violates the whole only if it violates every one of them.

The subjects are taken in the order in which the findings first speak of them,
and for each of them the alternatives are heard one after the other: if every
alternative has a violation, all those messages joined make one violation; else
the first satisfaction found by an alternative without a violation counts; else
there is nothing to say.
-/
import Conformance.Event
import Conformance.FirstSeen

namespace Conformance.Alternatives

/-- The events about one subject. -/
def about (subject : Subject) (events : List Event) : List Event :=
  events.filter fun e => e.subject == subject

/-- The subjects of all findings, each once. -/
def subjects (branches : List (List Event)) : List Subject :=
  firstSeen (branches.flatten.map (·.subject))

/-- The messages of the violations, in order. -/
def violationMessages (events : List Event) : List String :=
  (Event.violations events).map (·.message)

/-- The message of the first satisfaction. -/
def firstSatisfied? (events : List Event) : Option String :=
  (events.find? fun e => e.outcome == .satisfied).map (·.message)

/-- What has come out about a subject, some alternatives having been heard. -/
structure Hearing where
  /-- The messages of all violations. -/
  violated : List String := []
  /-- The message of the first satisfaction that counts. -/
  satisfied : Option String := none
  /-- Whether every alternative has a violation. -/
  allViolated : Bool := true

/-- Hears what another alternative finds about the subject. -/
def Hearing.hear (heard : Hearing) (findings : List Event) : Hearing :=
  let violations := violationMessages findings
  if violations.isEmpty then
    { heard with
      allViolated := false
      satisfied :=
        if heard.satisfied.isNone then firstSatisfied? findings else heard.satisfied }
  else
    { heard with violated := heard.violated ++ violations }

/-- What the alternatives together say of a subject. -/
def judge (branches : List (List Event)) (subject : Subject) :
    Option Event :=
  let heard : Hearing :=
    branches.foldl (fun heard branch => heard.hear (about subject branch)) {}
  if heard.allViolated then
    some (.violated subject (" and ".intercalate heard.violated))
  else
    heard.satisfied.map (.satisfied subject)

/-- The findings of alternatives, joined. -/
def merge (branches : List (List Event)) : List Event :=
  (subjects branches).filterMap (judge branches)

end Conformance.Alternatives
