/-
Conformance/Toml/Statement.lean

The statements of a TOML document, one to a line or more: table headers and
key-value pairs.  This is what the text says; which documents are consistent
is decided when the statements are put together.

A reader is given a text and returns what it has read and the rest.  Arrays
and inline tables nest, up to a limit.  Their readers call each other with
less `fuel` each time; twice the length of the text is always enough, since
every second call follows a character.
-/
import Conformance.Toml.Datetime
import Conformance.Toml.Document
import Conformance.Toml.Text

namespace Conformance.Toml

/-- Arrays and inline tables nest less deep than this, and dotted keys have
fewer parts. -/
def nestingLimit : Nat := 80

/-! ### Blanks and comments -/

/-- The text after a comment sign, up to the end of the line. -/
def skipComment (cs : List Char) : List Char :=
  cs.dropWhile isPlain

/-- Skips blanks within a line. -/
def skipBlanks (cs : List Char) : List Char :=
  cs.dropWhile isBlank

/-- Reads a line break. -/
def lineBreak? : List Char → Option (List Char)
  | '\n' :: cs => some cs
  | '\r' :: '\n' :: cs => some cs
  | _ => none

/-- Reads the end of a line, or of the text. -/
def lineEnd? : List Char → Option (List Char)
  | [] => some []
  | cs => lineBreak? cs

/-- Reads what may follow a statement: blanks and a comment. -/
def lineTrail? (cs : List Char) : Option (List Char) :=
  match skipBlanks cs with
  | '#' :: cs => lineEnd? (skipComment cs)
  | cs => lineEnd? cs

/-- Where a reader stands that skips blanks, line breaks and comments. -/
inductive Gap where
  | blank
  | comment
  deriving DecidableEq, Repr

/-- Skips blanks, line breaks and comments.  A comment must end with its
line. -/
def skipGap? : Gap → List Char → Option (List Char)
  | .blank, [] => some []
  | .comment, [] => none
  | .blank, '#' :: cs => skipGap? .comment cs
  | _, '\n' :: cs => skipGap? .blank cs
  | _, '\r' :: '\n' :: cs => skipGap? .blank cs
  | .blank, c :: cs => if isBlank c then skipGap? .blank cs else some (c :: cs)
  | .comment, c :: cs => if isPlain c then skipGap? .comment cs else none

/-! ### Keys -/

/-- Characters of keys that need no quotation marks. -/
def isBare (c : Char) : Bool :=
  c.isAlphanum || c = '-' || c = '_'

/-- Reads one part of a key. -/
def simpleKey? : List Char → Option (String × List Char)
  | '"' :: cs => (basicString? cs).map fun (s, rest) => (.ofList s, rest)
  | '\x27' :: cs => (literalString? cs).map fun (s, rest) => (.ofList s, rest)
  | cs =>
    match cs.span isBare with
    | ([], _) => none
    | (name, rest) => some (.ofList name, rest)

/-- Reads the parts of a key, with dots between them and blanks around them. -/
def keyParts? : (fuel : Nat) → List Char → Option (Key × List Char)
  | 0, _ => none
  | fuel + 1, cs => do
    let (part, rest) ← simpleKey? (skipBlanks cs)
    match skipBlanks rest with
    | '.' :: rest =>
      let (parts, rest) ← keyParts? fuel rest
      return (part :: parts, rest)
    | rest => return ([part], rest)

/-- Reads a key. -/
def key? (cs : List Char) : Option (Key × List Char) := do
  let (key, rest) ← keyParts? cs.length cs
  if key.length < nestingLimit then return (key, rest) else none

/-! ### Values -/

/-- Characters of values other than strings, arrays and tables. -/
def isAtomic (c : Char) : Bool :=
  c.isAlphanum || c = '+' || c = '-' || c = '_' || c = '.' || c = ':'

/-- The value that a literal of such characters stands for. -/
def atom? (cs : List Char) : Option Value :=
  if cs = "true".toList then some (.boolean true)
  else if cs = "false".toList then some (.boolean false)
  else if isDatetime cs then some (.datetime (.ofList cs))
  else if isFloat cs then some (.float (.ofList cs))
  else (integer? cs).map .integer

/-- Reads such a value.  A blank may stand between a date and a time. -/
def readAtom? (cs : List Char) : Option (Value × List Char) :=
  let (literal, rest) := cs.span isAtomic
  match rest with
  | ' ' :: c :: rest' =>
    if isDate literal && c.isDigit then
      let (time, after) := (c :: rest').span isAtomic
      if isOffsetTime time then
        some (.datetime (.ofList (literal ++ ' ' :: time)), after)
      else none
    else (atom? literal).map (·, rest)
  | _ => (atom? literal).map (·, rest)

mutual

/-- Reads a value inside `depth` arrays and inline tables. -/
def value? : (fuel depth : Nat) → List Char → Option (Value × List Char)
  | 0, _, _ => none
  | fuel + 1, depth, cs =>
    match cs with
    | '[' :: cs =>
      if depth + 1 < nestingLimit then do
        let (items, rest) ← arrayItems? fuel (depth + 1) cs
        return (.array items, rest)
      else none
    | '\x7b' :: cs =>
      if depth + 1 < nestingLimit then do
        let (entries, rest) ← inlineEntries? fuel (depth + 1) cs
        return (.table entries, rest)
      else none
    | '"' :: _ | '\x27' :: _ =>
      (string? cs).map fun (s, rest) => (.string (.ofList s), rest)
    | _ => readAtom? cs

/-- Reads the items of an array and its closing bracket.  A comma may follow
the last item. -/
def arrayItems? : (fuel depth : Nat) → List Char →
    Option (List Value × List Char)
  | 0, _, _ => none
  | fuel + 1, depth, cs => do
    match ← skipGap? .blank cs with
    | ']' :: rest => return ([], rest)
    | cs =>
      let (item, rest) ← value? fuel depth cs
      match ← skipGap? .blank rest with
      | ',' :: rest =>
        let (items, rest) ← arrayItems? fuel depth rest
        return (item :: items, rest)
      | ']' :: rest => return ([item], rest)
      | _ => none

/-- Reads the entries of an inline table and its closing brace. -/
def inlineEntries? : (fuel depth : Nat) → List Char →
    Option (Table × List Char)
  | 0, _, _ => none
  | fuel + 1, depth, cs =>
    match skipBlanks cs with
    | '\x7d' :: rest => some ([], rest)
    | cs => do
      let (pairs, rest) ← inlinePairs? fuel depth cs
      let entries ← assignAll pairs
      return (entries, rest)

/-- Reads one or more pairs of an inline table and its closing brace.  No
comma follows the last pair. -/
def inlinePairs? : (fuel depth : Nat) → List Char →
    Option (List (Key × Value) × List Char)
  | 0, _, _ => none
  | fuel + 1, depth, cs => do
    let (key, rest) ← key? cs
    match rest with
    | '=' :: rest =>
      let (value, rest) ← value? fuel depth (skipBlanks rest)
      match skipBlanks rest with
      | ',' :: rest =>
        let (pairs, rest) ← inlinePairs? fuel depth rest
        return ((key, value) :: pairs, rest)
      | '\x7d' :: rest => return ([(key, value)], rest)
      | _ => none
    | _ => none

end

/-! ### Statements -/

/-- Reads a table header, after its opening brackets. -/
def header? (closing : List Char) (cs : List Char) :
    Option (Key × List Char) := do
  let (key, rest) ← key? cs
  if closing.isPrefixOf rest then
    return (key, ← lineTrail? (rest.drop closing.length))
  else none

/-- Reads a key-value pair. -/
def pair? (cs : List Char) : Option (Key × Value × List Char) := do
  let (key, rest) ← key? cs
  match rest with
  | '=' :: rest =>
    let rest := skipBlanks rest
    let (value, rest) ← value? (2 * rest.length + 2) 0 rest
    return (key, value, ← lineTrail? rest)
  | _ => none

/-- Reads a statement; blank lines and comments are none. -/
def statement? (cs : List Char) : Option (Option Statement × List Char) :=
  match cs with
  | '#' :: cs => (lineEnd? (skipComment cs)).map (none, ·)
  | '\n' :: _ | '\r' :: _ => (lineBreak? cs).map (none, ·)
  | '[' :: '[' :: cs =>
    (header? [']', ']'] cs).map fun (key, rest) => (some (.element key), rest)
  | '[' :: cs =>
    (header? [']'] cs).map fun (key, rest) => (some (.table key), rest)
  | cs =>
    (pair? cs).map fun (key, value, rest) => (some (.pair key value), rest)

/-- Reads statements to the end of the text. -/
def statements? : (fuel : Nat) → List Char → Option (List Statement)
  | 0, _ => none
  | fuel + 1, cs =>
    match skipBlanks cs with
    | [] => some []
    | cs => do
      let (statement, rest) ← statement? cs
      return statement.toList ++ (← statements? fuel rest)

/-- Reads a document.  A byte order mark in front does not count. -/
def parse? (text : String) : Option Table :=
  let cs := match text.toList with
    | '\ufeff' :: cs => cs
    | cs => cs
  (statements? (cs.length + 1) cs).bind assemble?

end Conformance.Toml
