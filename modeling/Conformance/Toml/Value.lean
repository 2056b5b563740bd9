/-
Conformance/Toml/Value.lean

The values of TOML documents.
-/

namespace Conformance.Toml

/-- A value.  Numbers with a fraction and points in time are kept as they are
written, since nothing here computes with them.  The keys of a table are
distinct. -/
inductive Value where
  | string (s : String)
  | integer (n : Int)
  | float (literal : String)
  | boolean (b : Bool)
  | datetime (literal : String)
  | array (items : List Value)
  | table (entries : List (String × Value))
  deriving Repr

/-- The contents of a table. -/
abbrev Table := List (String × Value)

end Conformance.Toml
