/-
Conformance/CodeBase/Build.lean

Building a code base from declarations, in four steps.

1. Members given apart from their type join the first type of that name.
2. Every type becomes an element, in order.
3. Every member becomes an element, type by type; a class that writes down no
   constructor gets an implicit one after its members.
4. Everything the declarations mention becomes a dependency, in order.  What
   is mentioned and not declared becomes a stub.

The first three steps may fail, and then the first fault in this order is the
answer; the last step always succeeds.
-/
import Conformance.CodeBase

namespace Conformance

/-- What a name was missing from. -/
inductive Unnamed where
  | type
  | member
  deriving DecidableEq, Repr

/-- Why declarations make no code base. -/
inductive BuildError where
  | duplicateClass (name : String)
  | duplicateMember (fullName : String)
  | unknownOwner (owner member : String)
  | emptyName (what : Unnamed)
  deriving DecidableEq, Repr

/-- The error in words. -/
def BuildError.message : BuildError → String
  | duplicateClass name =>
    "class `" ++ name ++ "` is declared more than once"
  | duplicateMember fullName =>
    "`" ++ fullName ++ "` is declared more than once"
  | unknownOwner owner member =>
    "cannot declare `" ++ member ++ "` on unknown class `" ++ owner ++ "`"
  | emptyName .type => "empty name in declaration of a class"
  | emptyName .member => "empty name in declaration of a member"

/-! ### The elements that declarations stand for -/

/-- The element of a declared type. -/
def Element.ofClass (id : ElementId) (c : ClassDecl) : Element where
  id := id
  kind := .type
  name := Name.simple c.name
  fullName := c.name
  flavor := c.flavor
  visibility := c.visibility
  annotations := c.annotations
  sourceFile := c.sourceFile

/-- The element of a type that is only mentioned. -/
def Element.stubClass (id : ElementId) (name : String) : Element where
  id := id
  kind := .type
  name := Name.simple name
  fullName := name
  visibility := .unknown
  isStub := true

/-- The element of a declared member. -/
def Element.ofMember (id owner : ElementId) (ownerName : String)
    (m : MemberDecl) : Element where
  id := id
  kind := .member m.kind
  name := m.name
  fullName := m.fullName ownerName
  owner := some owner
  visibility := m.visibility
  isStatic := m.isStatic
  annotations := m.annotations
  parameters := m.parameters
  returnType := m.returnType
  fieldType := m.fieldType

/-- The element of a member that is only mentioned. -/
def Element.stubMember (id owner : ElementId) (a : AccessDecl) : Element where
  id := id
  kind := .member a.target.kind
  name := a.target.name
  fullName := a.target.fullName a.owner
  owner := some owner
  visibility := .unknown
  parameters := a.target.parameters
  isStub := true

/-! ### Steps 1 to 3: declarations -/

/-- The declarations a code base is built from. -/
structure Blueprint where
  classes : List ClassDecl := []
  /-- Members given apart from their type, with the type's name. -/
  lateMembers : List (String × MemberDecl) := []
  deriving DecidableEq, Repr

/-- Adds a type. -/
def Blueprint.addClass (p : Blueprint) (c : ClassDecl) : Blueprint :=
  { p with classes := p.classes ++ [c] }

/-- Adds types, in order. -/
def Blueprint.addClasses (p : Blueprint) (cs : List ClassDecl) : Blueprint :=
  { p with classes := p.classes ++ cs }

/-- Adds a member to a type that may be declared before or after it. -/
def Blueprint.addMember (p : Blueprint) (owner : String) (m : MemberDecl) :
    Blueprint :=
  { p with lateMembers := p.lateMembers ++ [(owner, m)] }

namespace CodeBase

/-- Appends a member to the first type with the owner's name. -/
def attach (owner : String) (m : MemberDecl) :
    List ClassDecl → Except BuildError (List ClassDecl)
  | [] => .error (.unknownOwner owner m.name)
  | c :: cs =>
    if c.name = owner then
      .ok ({ c with members := c.members ++ [m] } :: cs)
    else do return c :: (← attach owner m cs)

/-- Appends members to their types, in order. -/
def attachAll (classes : List ClassDecl) :
    List (String × MemberDecl) → Except BuildError (List ClassDecl)
  | [] => .ok classes
  | (owner, m) :: late => do attachAll (← attach owner m classes) late

/-- A declaration and the id of the element it became. -/
structure Placed (α : Type) where
  id : ElementId
  decl : α
  deriving DecidableEq, Repr

/-- Makes every declared type an element. -/
def declareClasses (b : CodeBase) :
    List ClassDecl → Except BuildError (CodeBase × List (Placed ClassDecl))
  | [] => .ok (b, [])
  | c :: cs =>
    if c.name = "" then .error (.emptyName .type)
    else if (b.classId? c.name).isSome then .error (.duplicateClass c.name)
    else do
      let (b', placed) ← declareClasses
        (b.addType (.ofClass b.nextId c)) cs
      return (b', ⟨b.nextId, c⟩ :: placed)

/-- Makes members of one type elements.  Fields may share a name with code
units; `seen` holds the full names met so far, with whether a field has it. -/
def declareMembers (c : Placed ClassDecl) (b : CodeBase)
    (seen : List (Bool × String)) :
    List MemberDecl → Except BuildError (CodeBase × List (Placed MemberDecl))
  | [] => .ok (b, [])
  | m :: ms =>
    let fullName := m.fullName c.decl.name
    let signature := (m.kind == .field, fullName)
    if m.name = "" then .error (.emptyName .member)
    else if seen.contains signature then .error (.duplicateMember fullName)
    else do
      let (b', placed) ← declareMembers c
        (b.addMember c.id (.ofMember b.nextId c.id c.decl.name m))
        (signature :: seen) ms
      return (b', ⟨b.nextId, m⟩ :: placed)

/-- Gives a class the constructor it does not write down. -/
def addImplicitConstructor (c : Placed ClassDecl) (b : CodeBase) : CodeBase :=
  match c.decl.implicitConstructor? with
  | some m => b.addMember c.id (.ofMember b.nextId c.id c.decl.name m)
  | none => b

/-- A type and its written members, all placed. -/
structure PlacedClass where
  head : Placed ClassDecl
  members : List (Placed MemberDecl)
  deriving DecidableEq, Repr

/-- Makes the members of every type elements, type by type. -/
def declareAllMembers (b : CodeBase) :
    List (Placed ClassDecl) → Except BuildError (CodeBase × List PlacedClass)
  | [] => .ok (b, [])
  | c :: cs => do
    let (b₁, members) ← declareMembers c b [] c.decl.members
    let (b₂, placed) ← declareAllMembers (addImplicitConstructor c b₁) cs
    return (b₂, ⟨c, members⟩ :: placed)

/-! ### Step 4: dependencies -/

/-- A mention, and who makes it. -/
structure Reference where
  origin : ElementId
  originClass : ElementId
  mention : Mention
  deriving DecidableEq, Repr

/-- What a type and its members mention, in order. -/
def PlacedClass.references (c : PlacedClass) : List Reference :=
  c.head.decl.mentions.map (⟨c.head.id, c.head.id, ·⟩)
    ++ c.members.flatMap fun m => m.decl.mentions.map (⟨m.id, c.head.id, ·⟩)

/-- The type with a name; a stub is made if there is none. -/
def ensureClass (b : CodeBase) (name : String) : CodeBase × ElementId :=
  match b.classId? name with
  | some id => (b, id)
  | none => (b.addType (.stubClass b.nextId name), b.nextId)

/-- The member of type `c` that an access means; a stub is made if there is
none. -/
def ensureMember (b : CodeBase) (c : ElementId) (a : AccessDecl) :
    CodeBase × ElementId :=
  match b.member? c (.member a.target.kind) a.target.name
      a.target.parameters with
  | some m => (b, m.id)
  | none => (b.addMember c (.stubMember b.nextId c a), b.nextId)

/-- Records what a reference means.  An array counts as its elements' type,
and primitive types count as nothing. -/
def connect (b : CodeBase) (r : Reference) : CodeBase :=
  match r.mention with
  | .type kind name =>
    if Name.isPrimitive name then b
    else
      let (b, c) := b.ensureClass (Name.elementType name)
      b.addEdge kind r.origin r.originClass c c none
  | .member a =>
    let (b, c) := b.ensureClass a.owner
    let (b, m) := b.ensureMember c a
    b.addEdge (.access a.target.kind) r.origin r.originClass m c a.line

end CodeBase

/-- The code base that declarations describe. -/
def Blueprint.build (p : Blueprint) : Except BuildError CodeBase := do
  let classes ← CodeBase.attachAll p.classes p.lateMembers
  let (b, heads) ← CodeBase.empty.declareClasses classes
  let (b, placed) ← b.declareAllMembers heads
  return (placed.flatMap (·.references)).foldl CodeBase.connect b

end Conformance
