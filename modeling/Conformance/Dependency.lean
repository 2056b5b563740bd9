/-
Conformance/Dependency.lean

Dependencies: one element uses another.  A dependency runs from an element
(`origin`) to an element (`target`), and remembers the types both belong to.
-/
import Conformance.Element

namespace Conformance

/-- How one element uses another. -/
inductive DependencyKind where
  /-- Code calls a method or constructor, or reads or writes a field. -/
  | access (target : MemberKind)
  | fieldType
  | parameterType
  | returnType
  | annotated
  | extending
  | implementing
  deriving DecidableEq, Repr

/-- Whether code runs into the target. -/
def DependencyKind.isAccess : DependencyKind → Bool
  | .access _ => true
  | _ => false

/-- What an element does to the target, in a message. -/
def DependencyKind.phrase : DependencyKind → String
  | .fieldType => "has type"
  | .parameterType => "has parameter of type"
  | .returnType => "has return type"
  | .access .method => "calls method"
  | .access .constructor => "calls constructor"
  | .access .field => "accesses field"
  | .annotated => "is annotated with"
  | .extending => "extends class"
  | .implementing => "implements interface"

/-- A use of one element by another. -/
structure Dependency where
  id : EdgeId
  kind : DependencyKind
  origin : ElementId
  originClass : ElementId
  target : ElementId
  targetClass : ElementId
  line : Option Nat := none
  deriving DecidableEq, Repr

namespace Dependency

/-- A use that stays within one type. -/
def isSelfEdge (d : Dependency) : Bool :=
  d.originClass == d.targetClass

/-- A use that leaves type `c`. -/
def leaves (c : ElementId) (d : Dependency) : Bool :=
  d.originClass == c && !d.isSelfEdge

/-- A use that comes to type `c` from outside. -/
def enters (c : ElementId) (d : Dependency) : Bool :=
  d.targetClass == c && !d.isSelfEdge

/-- An access made by code of type `c`, perhaps to itself. -/
def callsFrom (c : ElementId) (d : Dependency) : Bool :=
  d.kind.isAccess && d.originClass == c

/-- An access made to a member of type `c`, perhaps by itself. -/
def callsTo (c : ElementId) (d : Dependency) : Bool :=
  d.kind.isAccess && d.targetClass == c

/-- The place of a use, known if both the file and the line are. -/
def location (d : Dependency) (originClass : Element) : String :=
  match originClass.sourceFile, d.line with
  | some file, some line => " in (" ++ file ++ ":" ++ toString line ++ ")"
  | _, _ => ""

/-- A use in words, with the elements its ids stand for. -/
def describe (d : Dependency) (origin originClass target : Element) :
    String :=
  origin.display ++ " " ++ d.kind.phrase ++ " <" ++ target.fullName ++ ">"
    ++ d.location originClass

end Dependency

end Conformance
