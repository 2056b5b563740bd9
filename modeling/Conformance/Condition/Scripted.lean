/-
Conformance/Condition/Scripted.lean

Conditions whose findings are written down instead of worked out.  They make
it possible to try a rule, or a combination of conditions, on findings of
every sort: several about one subject, some about no element of the model,
and contradictions at a chosen element.
-/
import Conformance.Condition

namespace Conformance.Scripted

/-- Puts `name` in the place of each pair of braces. -/
def fill (name : List Char) : List Char → List Char
  | '\x7b' :: '\x7d' :: cs => name ++ fill name cs
  | c :: cs => c :: fill name cs
  | [] => []

/-- The elements, by full name, that a line of a script is for; all of them
if not given. -/
abbrev Only := Option (List String)

/-- Whether a line of a script is for an element. -/
def Only.includes (only : Only) (e : Element) : Bool :=
  match only with
  | none => true
  | some names => names.contains e.fullName

/-- An event to report. -/
structure Line where
  outcome : Outcome
  /-- The message, with braces where the element's full name goes. -/
  message : String
  /-- What the event is about; the element itself if not given. -/
  subject : Option Subject := none
  only : Only := none
  deriving DecidableEq, Repr

/-- The event that a line reports about an element. -/
def Line.event (line : Line) (e : Element) : Event where
  subject := line.subject.getD (.element e.id)
  outcome := line.outcome
  message := String.ofList (fill e.fullName.toList line.message.toList)

/-- Reports the events of a script. -/
def emitting (description : String) (lines : List Line) : Condition :=
  .custom description fun _ e =>
    { events := (lines.filter (·.only.includes e)).map (·.event e) }

/-- A contradiction to run into. -/
inductive Fault where
  | unknownElement (id : ElementId)
  | notACodeUnit (edge : EdgeId)
  | missingOwner
  deriving DecidableEq, Repr

/-- The contradiction as met at an element. -/
def Fault.at (fault : Fault) (e : Element) : Inconsistency :=
  match fault with
  | unknownElement id => .unknownElement id
  | notACodeUnit edge => .notACodeUnit edge e.display
  | missingOwner => .missingOwner e.fullName

/-- Runs into a contradiction. -/
def failing (description : String) (fault : Fault) (only : Only) :
    Condition :=
  .custom description fun _ e =>
    if only.includes e then { fault := some (fault.at e) } else {}

/-- Asks only that the model knows the element's owner. -/
def owned (description : String) : Condition :=
  .custom description fun m e =>
    match m.ownerOf e with
    | .ok _ => {}
    | .error fault => { fault := some fault }

end Conformance.Scripted
