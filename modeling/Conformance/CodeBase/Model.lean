/-
Conformance/CodeBase/Model.lean

A code base as a model for rules.  It answers the questions on dependencies
from its indexes; `View` shows the same code base differently, with elements
hidden or exchanged and dependencies left out, repeated or reordered, and
answers by scanning.
-/
import Conformance.CodeBase
import Conformance.CodeModel

namespace Conformance

/-- The code base as rules see it. -/
def CodeBase.model (b : CodeBase) : CodeModel where
  element? := b.element?
  classNamed? := b.classNamed?
  classes := b.classes
  membersOf := b.membersOf
  dependencies := b.dependencies
  dependency? := b.dependency?
  dependenciesFrom c := (b.outgoing c).filter fun d => !d.isSelfEdge
  dependenciesInto c := (b.incoming c).filter fun d => !d.isSelfEdge
  callsFrom c := (b.outgoing c).filter fun d => d.kind.isAccess
  callsTo c := (b.incoming c).filter fun d => d.kind.isAccess

/-! ### Views -/

/-- A different look at a code base. -/
structure View where
  /-- Elements that are not found by their id. -/
  hidden : List ElementId := []
  /-- Elements that are found under another's id; the first pair counts. -/
  exchanged : List (ElementId × ElementId) := []
  /-- The dependencies shown, in this order; all of them if not given. -/
  shown : Option (List EdgeId) := none
  deriving DecidableEq, Repr

namespace View

/-- The id under which the code base knows what the view shows for `id`. -/
def target (v : View) (id : ElementId) : ElementId :=
  (v.exchanged.lookup id).getD id

/-- The element the view shows for an id. -/
def element? (v : View) (b : CodeBase) (id : ElementId) : Option Element :=
  if v.hidden.contains id then none else b.element? (v.target id)

/-- The dependencies the view shows. -/
def dependencies (v : View) (b : CodeBase) : List Dependency :=
  match v.shown with
  | some ids => ids.filterMap b.dependency?
  | none => b.dependencies

/-- The code base as rules see it through the view. -/
def model (v : View) (b : CodeBase) : CodeModel where
  element? := v.element? b
  classNamed? := b.classNamed?
  classes := b.classes
  membersOf := b.membersOf
  dependencies := v.dependencies b

end View

end Conformance
