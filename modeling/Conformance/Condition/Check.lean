/-
Conformance/Condition/Check.lean

The course of a check.  A check adds events to those collected before it, and
may break off when the model contradicts itself; the events added until then
stay.

`aside` runs a check on its own: its events are handed back instead of being
collected, and are lost if it breaks off.
-/
import Conformance.CodeModel
import Conformance.Event

namespace Conformance

/-- A computation that collects events and may break off. -/
abbrev Check (α : Type) := ExceptT Inconsistency (StateM (List Event)) α

namespace Check

/-- The result of a check, and the events after it, given those before. -/
def runFrom {α : Type} (events : List Event) (x : Check α) :
    Except Inconsistency α × List Event :=
  Id.run (StateT.run (ExceptT.run x) events)

/-- Adds events. -/
def emit (events : List Event) : Check Unit :=
  modify (· ++ events)

/-- Adds an event that the subject satisfies the condition. -/
def satisfied (subject : Subject) (message : String) : Check Unit :=
  emit [.satisfied subject message]

/-- Adds an event that the subject violates the condition. -/
def violated (subject : Subject) (message : String) : Check Unit :=
  emit [.violated subject message]

/-- A lookup that breaks the check off if it fails. -/
def lookup {α : Type} (x : Except Inconsistency α) : Check α :=
  match x with
  | .ok a => pure a
  | .error fault => throw fault

/-- Runs a check on its own and returns its events. -/
def aside (x : Check Unit) : Check (List Event) :=
  match x.runFrom [] with
  | (.ok _, events) => pure events
  | (.error fault, _) => throw fault

/-! ### What the parts of a check do to the events -/

variable {α β : Type} (events : List Event)

@[simp]
theorem runFrom_pure (a : α) :
    runFrom events (pure a) = (.ok a, events) := rfl

@[simp]
theorem runFrom_throw (fault : Inconsistency) :
    runFrom events (throw fault : Check α) = (.error fault, events) := rfl

@[simp]
theorem runFrom_emit (added : List Event) :
    runFrom events (emit added) = (.ok (), events ++ added) := rfl

/-- A lookup leaves the events alone. -/
@[simp]
theorem runFrom_lookup (x : Except Inconsistency α) :
    runFrom events (lookup x) = (x, events) := by
  cases x <;> rfl

/-- What follows a part goes on from its events, unless it breaks off. -/
theorem runFrom_bind (x : Check α) (f : α → Check β) :
    runFrom events (x >>= f) =
      match runFrom events x with
      | (.ok a, events') => runFrom events' (f a)
      | (.error fault, events') => (.error fault, events') := by
  show Id.run (StateT.run (ExceptT.run (x >>= f)) events) = _
  rcases h : runFrom events x with ⟨fault | a, events'⟩ <;>
    simp_all [runFrom, ExceptT.run_bind, StateT.run_bind]

/-- A check run aside leaves the events alone. -/
theorem runFrom_aside (x : Check Unit) :
    runFrom events (aside x) =
      match runFrom [] x with
      | (.ok _, found) => (.ok found, events)
      | (.error fault, _) => (.error fault, events) := by
  unfold aside
  rcases runFrom [] x with ⟨fault | u, found⟩ <;> rfl

end Check

end Conformance
