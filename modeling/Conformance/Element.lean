/-
Conformance/Element.lean

Program elements: types, and their methods, constructors and fields.  An
element knows its own declaration; how elements use each other is recorded by
dependencies.
-/
import Conformance.Name

namespace Conformance

/-- Position of an element in the code base, counted from zero in the order
in which elements come into being. -/
abbrev ElementId := Nat

/-- Position of a dependency in the code base, counted from zero. -/
abbrev EdgeId := Nat

/-! ### Kinds -/

/-- What a member of a type can be. -/
inductive MemberKind where
  | method
  | constructor
  | field
  deriving DecidableEq, Repr

/-- What an element can be. -/
inductive ElementKind where
  | type
  | member (kind : MemberKind)
  deriving DecidableEq, Repr

/-- Methods and constructors hold code. -/
def MemberKind.isCodeUnit : MemberKind → Bool
  | .method | .constructor => true
  | .field => false

/-- Methods and constructors hold code. -/
def ElementKind.isCodeUnit : ElementKind → Bool
  | .type => false
  | .member kind => kind.isCodeUnit

/-- The word for a kind in messages. -/
def ElementKind.label : ElementKind → String
  | .type => "Class"
  | .member .method => "Method"
  | .member .constructor => "Constructor"
  | .member .field => "Field"

/-- What sort of type is declared. -/
inductive Flavor where
  | plain
  | interface
  | annotationType
  deriving DecidableEq, Repr

/-- Who may use an element, from the narrowest to the widest.  Nothing is
known of an element that is only referred to. -/
inductive Visibility where
  | unknown
  | «private»
  | package
  | «protected»
  | «public»
  deriving DecidableEq, Repr

/-- Place of a visibility in the order from narrow to wide. -/
def Visibility.rank : Visibility → Nat
  | .unknown => 0
  | .private => 1
  | .package => 2
  | .protected => 3
  | .public => 4

/-- Whether a visibility is as wide as another, or wider. -/
def Visibility.atLeast (v least : Visibility) : Bool :=
  least.rank ≤ v.rank

/-! ### Annotations on elements -/

/-- An annotation as it stands on an element: the annotation's type and the
attributes given there. -/
structure AnnotationUse where
  typeName : String
  attributes : List (String × String) := []
  deriving DecidableEq, Repr

/-- Sets an attribute; a value given earlier for the same key is lost. -/
def AnnotationUse.withAttribute (a : AnnotationUse) (key value : String) :
    AnnotationUse :=
  { a with
    attributes := a.attributes.filter (fun kv => kv.1 != key)
      ++ [(key, value)] }

/-- The value of an attribute. -/
def AnnotationUse.attribute? (a : AnnotationUse) (key : String) :
    Option String :=
  a.attributes.lookup key

/-- The annotation's name without its package. -/
def AnnotationUse.simpleName (a : AnnotationUse) : String :=
  Name.simple a.typeName

/-! ### Elements -/

/-- A type or a member of one.  A stub stands for something that is referred
to and not declared, and knows no more than the reference says. -/
structure Element where
  id : ElementId
  kind : ElementKind
  name : String
  fullName : String
  owner : Option ElementId := none
  flavor : Flavor := .plain
  visibility : Visibility := .public
  isStatic : Bool := false
  annotations : List AnnotationUse := []
  parameters : List String := []
  returnType : Option String := none
  fieldType : Option String := none
  sourceFile : Option String := none
  isStub : Bool := false
  deriving DecidableEq, Repr

namespace Element

/-- An element in a message: its kind and its full name. -/
def display (e : Element) : String :=
  e.kind.label ++ " <" ++ e.fullName ++ ">"

/-- The full name of the type an element belongs to, a type's own name
included, as far as the element's full name tells. -/
def ownerName (e : Element) : String :=
  match e.kind with
  | .type => e.fullName
  | .member .field => Name.ownerOfField e.fullName
  | .member _ => Name.ownerOfCodeUnit e.fullName

/-- The package an element resides in. -/
def package (e : Element) : String :=
  Name.package e.ownerName

/-- A type's package is that of its full name. -/
theorem package_of_type {e : Element} (h : e.kind = .type) :
    e.package = Name.package e.fullName := by
  rw [package, ownerName, h]

/-- Whether everyone may use the element. -/
def isPublic (e : Element) : Bool :=
  e.visibility == .public

/-- The first annotation of a given type on the element. -/
def annotationOf? (e : Element) (marker : String) : Option AnnotationUse :=
  e.annotations.find? fun a => a.typeName == marker

/-- Whether an annotation of a given type stands on the element. -/
def isAnnotatedWith (e : Element) (marker : String) : Bool :=
  e.annotations.any fun a => a.typeName == marker

/-- The types of the annotations on the element, in order. -/
def markers (e : Element) : List String :=
  e.annotations.map (·.typeName)

end Element

end Conformance
