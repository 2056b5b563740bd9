/-
Conformance/CodeBase.lean

A code base: all elements, all dependencies, and indexes on both.

Elements and dependencies are numbered by their place in their array.  Beside
each element the code base keeps what belongs to it (`Slot`): the members it
declares, the members others only refer to, and the dependencies that start
and end in it.  The indexes are kept up by three operations, `addType`,
`addMember` and `addEdge`; nothing is ever removed.
-/
import Conformance.Declaration

namespace Conformance

/-- An element with what the code base has filed under it, oldest first. -/
structure Slot where
  element : Element
  /-- Declared members, implicit constructors included. -/
  members : List ElementId := []
  /-- Members that are referred to and not declared. -/
  stubMembers : List ElementId := []
  /-- Dependencies whose origin belongs to this type. -/
  outgoing : List EdgeId := []
  /-- Dependencies whose target belongs to this type. -/
  incoming : List EdgeId := []
  deriving DecidableEq, Repr

/-- All elements and dependencies, with their indexes. -/
structure CodeBase where
  slots : Array Slot := #[]
  edges : Array Dependency := #[]
  /-- Declared types, in order of declaration. -/
  classIds : List ElementId := []
  /-- Types by full name, declared ones and stubs. -/
  classIdsByName : List (String × ElementId) := []
  deriving DecidableEq, Repr

namespace CodeBase

/-- The code base nothing has been added to. -/
def empty : CodeBase := {}

/-! ### Reading -/

/-- The id the next element will get. -/
def nextId (b : CodeBase) : ElementId := b.slots.size

/-- All elements, in the order of their ids. -/
def elements (b : CodeBase) : List Element :=
  b.slots.toList.map (·.element)

/-- All dependencies, in the order of their ids. -/
def dependencies (b : CodeBase) : List Dependency :=
  b.edges.toList

/-- The element with an id. -/
def element? (b : CodeBase) (id : ElementId) : Option Element :=
  b.slots[id]?.map (·.element)

/-- The dependency with an id. -/
def dependency? (b : CodeBase) (id : EdgeId) : Option Dependency :=
  b.edges[id]?

/-- The id of the type with a full name, declared or not. -/
def classId? (b : CodeBase) (name : String) : Option ElementId :=
  b.classIdsByName.lookup name

/-- The type with a full name, declared or not. -/
def classNamed? (b : CodeBase) (name : String) : Option Element :=
  (b.classId? name).bind b.element?

/-- The declared types. -/
def classes (b : CodeBase) : List Element :=
  b.classIds.filterMap b.element?

/-- The declared members of a type. -/
def membersOf (b : CodeBase) (c : ElementId) : List Element :=
  match b.slots[c]? with
  | some slot => slot.members.filterMap b.element?
  | none => []

/-- The members of a type that are referred to and not declared. -/
def stubMembersOf (b : CodeBase) (c : ElementId) : List Element :=
  match b.slots[c]? with
  | some slot => slot.stubMembers.filterMap b.element?
  | none => []

/-- The dependencies that start in a type. -/
def outgoing (b : CodeBase) (c : ElementId) : List Dependency :=
  match b.slots[c]? with
  | some slot => slot.outgoing.filterMap b.dependency?
  | none => []

/-- The dependencies that end in a type. -/
def incoming (b : CodeBase) (c : ElementId) : List Dependency :=
  match b.slots[c]? with
  | some slot => slot.incoming.filterMap b.dependency?
  | none => []

/-- The first element with a full name. -/
def find? (b : CodeBase) (fullName : String) : Option Element :=
  b.elements.find? fun e => e.fullName == fullName

/-- Whether a member is the one that a kind, a name and parameter types
refer to; a field is found by its name alone. -/
def refersTo (kind : ElementKind) (name : String) (parameters : List String)
    (member : Element) : Bool :=
  member.kind == kind && member.name == name
    && (kind == .member .field || member.parameters == parameters)

/-- The member of a type that a reference means, declared ones first. -/
def member? (b : CodeBase) (c : ElementId) (kind : ElementKind)
    (name : String) (parameters : List String) : Option Element :=
  (b.membersOf c ++ b.stubMembersOf c).find?
    (refersTo kind name parameters)

/-! ### Adding -/

/-- Files a type under its name. -/
def addType (b : CodeBase) (e : Element) : CodeBase :=
  { b with
    slots := b.slots.push { element := e }
    classIds := if e.isStub then b.classIds else b.classIds ++ [e.id]
    classIdsByName := (e.fullName, e.id) :: b.classIdsByName }

/-- Enters a member in its owner's slot. -/
def Slot.enter (member : Element) (slot : Slot) : Slot :=
  if member.isStub then
    { slot with stubMembers := slot.stubMembers ++ [member.id] }
  else { slot with members := slot.members ++ [member.id] }

/-- Files a member under its owner. -/
def addMember (b : CodeBase) (owner : ElementId) (e : Element) : CodeBase :=
  { b with
    slots := (b.slots.modify owner (Slot.enter e)).push { element := e } }

/-- Files a dependency under the types it joins. -/
def addEdge (b : CodeBase) (kind : DependencyKind)
    (origin originClass target targetClass : ElementId)
    (line : Option Nat) : CodeBase :=
  let id := b.edges.size
  { b with
    edges := b.edges.push
      { id, kind, origin, originClass, target, targetClass, line }
    slots := (b.slots.modify originClass fun slot =>
        { slot with outgoing := slot.outgoing ++ [id] }).modify
      targetClass fun slot =>
        { slot with incoming := slot.incoming ++ [id] } }

end CodeBase

end Conformance
