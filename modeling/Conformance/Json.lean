/-
Conformance/Json.lean

JSON documents and their text, laid out for reading: every entry of a list or
an object on a line of its own, indented by two blanks per level.
-/

namespace Conformance

/-- A JSON document, as far as reports need it.  The fields of an object are
written in the order given. -/
inductive Json where
  | text (s : String)
  | number (n : Nat)
  | list (items : List Json)
  | object (fields : List (String × Json))

namespace Json

/-- A control character as `\u` and four hexadecimal digits. -/
def unicodeEscape (n : Nat) : List Char :=
  let digits := Nat.toDigits 16 n
  ['\\', 'u'] ++ List.replicate (4 - digits.length) '0' ++ digits

/-- A character as it is written in a JSON string.  Only quotation marks,
backslashes and control characters are escaped. -/
def escapeChar (c : Char) : List Char :=
  match c with
  | '"' => ['\\', '"']
  | '\\' => ['\\', '\\']
  | '\n' => ['\\', 'n']
  | '\r' => ['\\', 'r']
  | '\t' => ['\\', 't']
  | '\x08' => ['\\', 'b']
  | '\x0c' => ['\\', 'f']
  | c => if c.toNat < 0x20 then unicodeEscape c.toNat else [c]

/-- A JSON string. -/
def quote (s : String) : String :=
  "\"" ++ String.ofList (s.toList.flatMap escapeChar) ++ "\""

/-- The start of a new line at a level. -/
def newLine (level : Nat) : String :=
  "\n" ++ String.ofList (List.replicate (2 * level) ' ')

mutual

/-- The text of a document whose first line stands at a level. -/
def render (level : Nat) : Json → String
  | text s => quote s
  | number n => toString n
  | list [] => "[]"
  | list (item :: items) =>
    "[" ++ newLine (level + 1) ++ render (level + 1) item
      ++ renderItems (level + 1) items ++ newLine level ++ "]"
  | object [] => "\x7b\x7d"
  | object ((key, value) :: fields) =>
    "\x7b" ++ newLine (level + 1) ++ quote key ++ ": "
      ++ render (level + 1) value
      ++ renderFields (level + 1) fields ++ newLine level ++ "\x7d"

/-- The items of a list after the first. -/
def renderItems (level : Nat) : List Json → String
  | [] => ""
  | item :: items =>
    "," ++ newLine level ++ render level item ++ renderItems level items

/-- The fields of an object after the first. -/
def renderFields (level : Nat) : List (String × Json) → String
  | [] => ""
  | (key, value) :: fields =>
    "," ++ newLine level ++ quote key ++ ": " ++ render level value
      ++ renderFields level fields

end

/-- The text of a document. -/
def pretty (j : Json) : String := j.render 0

end Json

end Conformance
