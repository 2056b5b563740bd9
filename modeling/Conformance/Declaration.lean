/-
Conformance/Declaration.lean

Declarations: what is written down about types and their members before any
name is resolved.  A declaration mentions other types and members by name
(`mentions`); those are what the dependencies of a code base are made from.
-/
import Conformance.Dependency

namespace Conformance

/-! ### Members -/

/-- A member as code refers to it, within its type. -/
inductive MemberRef where
  | method (name : String) (parameters : List String)
  | constructor (parameters : List String)
  | field (name : String)
  deriving DecidableEq, Repr

namespace MemberRef

/-- What sort of member is meant. -/
def kind : MemberRef → MemberKind
  | method _ _ => .method
  | constructor _ => .constructor
  | field _ => .field

/-- The name of the member that is meant. -/
def name : MemberRef → String
  | method name _ => name
  | constructor _ => Name.constructor
  | field name => name

/-- The parameter types of the member that is meant. -/
def parameters : MemberRef → List String
  | method _ parameters => parameters
  | constructor parameters => parameters
  | field _ => []

/-- The full name of the member that is meant, in the type `owner`. -/
def fullName (owner : String) : MemberRef → String
  | field name => Name.ofField owner name
  | method name parameters => Name.ofCodeUnit owner name parameters
  | constructor parameters =>
    Name.ofCodeUnit owner Name.constructor parameters

end MemberRef

/-- An access in the body of a method or constructor. -/
structure AccessDecl where
  /-- The type whose member is accessed. -/
  owner : String
  target : MemberRef
  line : Option Nat := none
  deriving DecidableEq, Repr

/-- What a member declaration starts with. -/
inductive MemberHead where
  | method (name : String)
  | constructor
  | field (name type : String)
  deriving DecidableEq, Repr

/-- A declared method, constructor or field. -/
structure MemberDecl where
  head : MemberHead
  /-- The return type, if one is written down. -/
  returns : Option String := none
  parameters : List String := []
  visibility : Visibility := .public
  isStatic : Bool := false
  annotations : List AnnotationUse := []
  accesses : List AccessDecl := []
  deriving DecidableEq, Repr

namespace MemberDecl

/-- What sort of member is declared. -/
def kind (m : MemberDecl) : MemberKind :=
  match m.head with
  | .method _ => .method
  | .constructor => .constructor
  | .field _ _ => .field

/-- The member's name; all constructors have the same. -/
def name (m : MemberDecl) : String :=
  match m.head with
  | .method name => name
  | .constructor => Name.constructor
  | .field name _ => name

/-- The return type; a method returns nothing unless it says otherwise. -/
def returnType (m : MemberDecl) : Option String :=
  match m.head with
  | .method _ => some (m.returns.getD "void")
  | _ => m.returns

/-- The type of a field. -/
def fieldType (m : MemberDecl) : Option String :=
  match m.head with
  | .field _ type => some type
  | _ => none

/-- The full name a member has in the type `owner`. -/
def fullName (owner : String) (m : MemberDecl) : String :=
  match m.head with
  | .field name _ => Name.ofField owner name
  | _ => Name.ofCodeUnit owner m.name m.parameters

end MemberDecl

/-! ### Types -/

/-- A declared type. -/
structure ClassDecl where
  name : String
  flavor : Flavor := .plain
  visibility : Visibility := .public
  annotations : List AnnotationUse := []
  sourceFile : Option String := none
  superclass : Option String := none
  interfaces : List String := []
  members : List MemberDecl := []
  deriving DecidableEq, Repr

/-- Whether a constructor is written down. -/
def ClassDecl.declaresConstructor (c : ClassDecl) : Bool :=
  c.members.any fun m => m.kind == .constructor

/-- The constructor a class has though none is written down.  Interfaces and
annotation types have none. -/
def ClassDecl.implicitConstructor? (c : ClassDecl) : Option MemberDecl :=
  if c.flavor = .plain && !c.declaresConstructor then
    some { head := .constructor, visibility := c.visibility }
  else none

/-! ### What a declaration mentions -/

/-- A name in a declaration that refers to something else. -/
inductive Mention where
  /-- A type, and what it is to the element that mentions it. -/
  | type (kind : DependencyKind) (name : String)
  /-- A member that code accesses. -/
  | member (access : AccessDecl)
  deriving DecidableEq, Repr

/-- What the head of a type declaration mentions, in order. -/
def ClassDecl.mentions (c : ClassDecl) : List Mention :=
  c.annotations.map (fun a => .type .annotated a.typeName)
    ++ c.superclass.toList.map (.type .extending)
    ++ c.interfaces.map (.type .implementing)

/-- The return type, where it counts: only methods have one. -/
def MemberDecl.mentionedReturnType (m : MemberDecl) : List String :=
  if m.kind = .method then m.returnType.toList else []

/-- The accesses, where they count: fields hold no code. -/
def MemberDecl.mentionedAccesses (m : MemberDecl) : List AccessDecl :=
  if m.kind.isCodeUnit then m.accesses else []

/-- What a member declaration mentions, in order. -/
def MemberDecl.mentions (m : MemberDecl) : List Mention :=
  m.annotations.map (fun a => .type .annotated a.typeName)
    ++ m.fieldType.toList.map (.type .fieldType)
    ++ m.parameters.map (.type .parameterType)
    ++ m.mentionedReturnType.map (.type .returnType)
    ++ m.mentionedAccesses.map .member

end Conformance
