/-
Conformance/Predicate.lean

Predicates narrow a selection of elements: "classes *that* are annotated with
@Entity".  A predicate has a description, which becomes part of the rule's,
and a test.
-/
import Conformance.CodeModel
import Conformance.Package

namespace Conformance

/-- A property of elements, in the words of rules. -/
inductive Predicate where
  /-- An annotation of this type stands on the element. -/
  | annotatedWith (marker : String)
  /-- An annotation of this type stands on the element, or on an annotation
  of it, and so on. -/
  | metaAnnotatedWith (marker : String)
  /-- An annotation of one of these types stands on the element. -/
  | annotatedByAny (markers : List String)
  /-- The element's package fits a pattern. -/
  | inPackage (pattern : String)
  /-- The element has this full name. -/
  | ofType (name : String)
  /-- A test of the rule's author. -/
  | test (description : String) (passes : CodeModel → Element → Bool)
  | and (p q : Predicate)
  | or (p q : Predicate)
  | not (p : Predicate)
  /-- The same property in other words. -/
  | describedAs (description : String) (p : Predicate)

namespace Predicate

/-- The property in words. -/
def description : Predicate → String
  | annotatedWith marker => "are annotated with @" ++ Name.simple marker
  | metaAnnotatedWith marker =>
    "are meta-annotated with @" ++ Name.simple marker
  | annotatedByAny markers =>
    "are annotated with " ++ " or ".intercalate (markers.map Name.simple)
  | inPackage pattern => "reside in a package '" ++ pattern ++ "'"
  | ofType name => "are of type " ++ name
  | test description _ => description
  | and p q => p.description ++ " and " ++ q.description
  | or p q => p.description ++ " or " ++ q.description
  | not p => "not " ++ p.description
  | describedAs description _ => description

/-- Whether an element has the property. -/
def holds (m : CodeModel) (e : Element) : Predicate → Bool
  | annotatedWith marker => e.isAnnotatedWith marker
  | metaAnnotatedWith marker => m.isMetaAnnotatedWith e marker
  | annotatedByAny markers => markers.any e.isAnnotatedWith
  | inPackage pattern => Package.admits pattern e.package
  | ofType name => e.fullName == name
  | test _ passes => passes m e
  | and p q => p.holds m e && q.holds m e
  | or p q => p.holds m e || q.holds m e
  | not p => !p.holds m e
  | describedAs _ p => p.holds m e

/-- The property that every element has, or none. -/
def constantly (value : Bool) (description : String) : Predicate :=
  test description fun _ _ => value

/-- The property of being visible at least as widely as said. -/
def visibleAtLeast (least : Visibility) (description : String) : Predicate :=
  test description fun _ e => e.visibility.atLeast least

end Predicate

end Conformance
