/-
Conformance/Toml/Text.lean

TOML's strings: basic ones with escapes, literal ones without, and both again
over several lines.  Each function is given the text after the opening
quotation marks and returns the contents and the text after the closing ones.
-/
import Conformance.Toml.Number

namespace Conformance.Toml

/-- Characters that may stand for themselves in strings and comments: the tab,
and everything from the blank on except the delete character. -/
def isPlain (c : Char) : Bool :=
  c = '\t' || (' ' ≤ c && c ≠ '\x7f')

/-- A blank within a line. -/
def isBlank (c : Char) : Bool :=
  c = ' ' || c = '\t'

/-- Contents read so far are put in front of what is read next. -/
def prepend (front : List Char) (rest : Option (List Char × List Char)) :
    Option (List Char × List Char) :=
  rest.map fun (contents, after) => (front ++ contents, after)

/-! ### Escapes -/

/-- The character with a code point given by hexadecimal digits. -/
def scalar? (digits : List Char) : Option Char :=
  if digits.all (isDigitIn 16) then
    let n := ofDigits 16 digits
    if n.isValidChar then some (Char.ofNat n) else none
  else none

/-- The character that a backslash and a letter stand for. -/
def shortEscape? : Char → Option Char
  | 'b' => some '\x08'
  | 't' => some '\t'
  | 'n' => some '\n'
  | 'f' => some '\x0c'
  | 'r' => some '\r'
  | '"' => some '"'
  | '\\' => some '\\'
  | _ => none

/-! ### Strings on one line -/

/-- Reads a basic string. -/
def basicString? : List Char → Option (List Char × List Char)
  | [] => none
  | '"' :: cs => some ([], cs)
  | '\\' :: 'u' :: a :: b :: c :: d :: cs =>
    match scalar? [a, b, c, d] with
    | some x => prepend [x] (basicString? cs)
    | none => none
  | '\\' :: 'U' :: a :: b :: c :: d :: e :: f :: g :: h :: cs =>
    match scalar? [a, b, c, d, e, f, g, h] with
    | some x => prepend [x] (basicString? cs)
    | none => none
  | '\\' :: c :: cs =>
    match shortEscape? c with
    | some x => prepend [x] (basicString? cs)
    | none => none
  | c :: cs => if isPlain c then prepend [c] (basicString? cs) else none

/-- Reads a literal string. -/
def literalString? : List Char → Option (List Char × List Char)
  | [] => none
  | '\x27' :: cs => some ([], cs)
  | c :: cs => if isPlain c then prepend [c] (literalString? cs) else none

/-! ### Strings over several lines -/

/-- The line break right after the opening quotation marks does not count. -/
def skipLineBreak : List Char → List Char
  | '\n' :: cs => cs
  | '\r' :: '\n' :: cs => cs
  | cs => cs

/-- Where a reader of a basic string over several lines stands. -/
inductive Position where
  /-- In the text. -/
  | text
  /-- After a backslash that joins lines, before the line break. -/
  | joining
  /-- After that line break, where blanks and line breaks are skipped. -/
  | joined
  deriving DecidableEq, Repr

/-- Reads a basic string over several lines.  Up to two quotation marks in a
row belong to the text, also right before the closing three. -/
def multilineBasic? : Position → List Char → Option (List Char × List Char)
  | _, [] => none
  | .joining, '\n' :: cs => multilineBasic? .joined cs
  | .joining, '\r' :: '\n' :: cs => multilineBasic? .joined cs
  | .joining, c :: cs =>
    if isBlank c then multilineBasic? .joining cs else none
  | .joined, ' ' :: cs => multilineBasic? .joined cs
  | .joined, '\t' :: cs => multilineBasic? .joined cs
  | .joined, '\n' :: cs => multilineBasic? .joined cs
  | .joined, '\r' :: '\n' :: cs => multilineBasic? .joined cs
  | _, '"' :: '"' :: '"' :: '"' :: '"' :: cs => some (['"', '"'], cs)
  | _, '"' :: '"' :: '"' :: '"' :: cs => some (['"'], cs)
  | _, '"' :: '"' :: '"' :: cs => some ([], cs)
  | _, '\n' :: cs => prepend ['\n'] (multilineBasic? .text cs)
  | _, '\r' :: '\n' :: cs => prepend ['\n'] (multilineBasic? .text cs)
  | _, '\\' :: 'u' :: a :: b :: c :: d :: cs =>
    match scalar? [a, b, c, d] with
    | some x => prepend [x] (multilineBasic? .text cs)
    | none => none
  | _, '\\' :: 'U' :: a :: b :: c :: d :: e :: f :: g :: h :: cs =>
    match scalar? [a, b, c, d, e, f, g, h] with
    | some x => prepend [x] (multilineBasic? .text cs)
    | none => none
  | _, '\\' :: '\r' :: '\n' :: cs => multilineBasic? .joined cs
  | _, '\\' :: c :: cs =>
    if c = '\n' then multilineBasic? .joined cs
    else if isBlank c then multilineBasic? .joining cs
    else
      match shortEscape? c with
      | some x => prepend [x] (multilineBasic? .text cs)
      | none => none
  | _, c :: cs =>
    if isPlain c then prepend [c] (multilineBasic? .text cs) else none

/-- Reads a literal string over several lines. -/
def multilineLiteral? : List Char → Option (List Char × List Char)
  | [] => none
  | '\x27' :: '\x27' :: '\x27' :: '\x27' :: '\x27' :: cs =>
    some (['\x27', '\x27'], cs)
  | '\x27' :: '\x27' :: '\x27' :: '\x27' :: cs => some (['\x27'], cs)
  | '\x27' :: '\x27' :: '\x27' :: cs => some ([], cs)
  | '\n' :: cs => prepend ['\n'] (multilineLiteral? cs)
  | '\r' :: '\n' :: cs => prepend ['\n'] (multilineLiteral? cs)
  | c :: cs => if isPlain c then prepend [c] (multilineLiteral? cs) else none

/-- Reads a string of any sort, opening quotation marks included. -/
def string? : List Char → Option (List Char × List Char)
  | '"' :: '"' :: '"' :: cs => multilineBasic? .text (skipLineBreak cs)
  | '\x27' :: '\x27' :: '\x27' :: cs => multilineLiteral? (skipLineBreak cs)
  | '"' :: cs => basicString? cs
  | '\x27' :: cs => literalString? cs
  | _ => none

end Conformance.Toml
