/-
Conformance/Name.lean

Qualified type names, as text: `java.util.Map$Entry`, `byte[]`.  A name is
never normalised; the functions below only cut it.
-/
import Conformance.Text.Cut

namespace Conformance.Name

/-- The last part of a qualified name, without the packages and the
enclosing types: `Entry` for `java.util.Map$Entry`. -/
def simple (name : String) : String :=
  String.ofList (Text.afterLast '$' (Text.afterLast '.' name.toList))

/-- The package of a qualified name: what stands before its last dot,
nothing for a name without one. -/
def package (name : String) : String :=
  String.ofList (Text.beforeLast '.' name.toList)

/-- Drops the array marks from a type name that is spelled backwards. -/
def dropArrayMarks : List Char → List Char
  | ']' :: '[' :: cs => dropArrayMarks cs
  | cs => cs

/-- The type of the innermost elements of an array type, and any other
type itself: `byte` for `byte[][]`. -/
def elementType (name : String) : String :=
  String.ofList (dropArrayMarks name.toList.reverse).reverse

/-- The type names that stand for no class. -/
def primitives : List String :=
  ["void", "boolean", "byte", "char", "short", "int", "long", "float",
    "double"]

/-- A primitive type, or an array of one at any depth. -/
def isPrimitive (name : String) : Bool :=
  primitives.contains (elementType name)

/-- The name every constructor has. -/
def constructor : String := "<init>"

/-- The full name of a method or constructor: parameter types tell
overloads apart. -/
def ofCodeUnit (owner name : String) (parameters : List String) : String :=
  owner ++ "." ++ name ++ "(" ++ ", ".intercalate parameters ++ ")"

/-- The full name of a field. -/
def ofField (owner name : String) : String :=
  owner ++ "." ++ name

/-- The owner in a full name made by `ofField`. -/
def ownerOfField (fullName : String) : String :=
  String.ofList (Text.beforeLast '.' fullName.toList)

/-- The owner in a full name made by `ofCodeUnit`: dots among the
parameter types do not count. -/
def ownerOfCodeUnit (fullName : String) : String :=
  String.ofList (Text.beforeLast '.' (Text.beforeFirst '(' fullName.toList))

end Conformance.Name
