/-
Conformance/Package.lean

Package patterns.  A pattern is written like a package name: `*` stands for
exactly one segment, and two dots in a row stand for any number of segments,
none included, so that `..service..` finds every package with a segment
`service`.

A pattern is read in two steps.  Two dots become a segment `**` of their own
(`expand`), and the segments between the dots become tokens.  Matching then
cuts the package into one piece per token (`matchSegments`).
-/
import Conformance.Text.Cut

namespace Conformance.Package

/-- One step of a package pattern. -/
inductive Token where
  /-- Any number of segments. -/
  | many
  /-- Exactly one segment, whatever it is. -/
  | one
  /-- Exactly this segment. -/
  | literal (segment : List Char)
  deriving DecidableEq, Repr

/-- Writes two dots in a row, from the left, as a segment `**`. -/
def expand : List Char → List Char
  | '.' :: '.' :: cs => '.' :: '*' :: '*' :: '.' :: expand cs
  | c :: cs => c :: expand cs
  | [] => []

/-- The token a segment of an expanded pattern stands for. -/
def Token.ofSegment (segment : List Char) : Token :=
  if segment = ['*', '*'] then .many
  else if segment = ['*'] then .one
  else .literal segment

/-- The tokens of a pattern. -/
def tokens (pattern : String) : List Token :=
  (Text.segments '.' (expand pattern.toList)).map Token.ofSegment

/-- Whether the tokens cover the segments, in order and to the end. -/
def matchSegments : List Token → List (List Char) → Bool
  | [], segments => segments.isEmpty
  | .many :: ts, segments =>
    (List.range (segments.length + 1)).any fun i =>
      matchSegments ts (segments.drop i)
  | .one :: ts, _ :: segments => matchSegments ts segments
  | .literal s :: ts, segment :: segments =>
    segment == s && matchSegments ts segments
  | _ :: _, [] => false

/-- Whether a package is one of those that a pattern describes. -/
def admits (pattern package : String) : Bool :=
  matchSegments (tokens pattern) (Text.segments '.' package.toList)

end Conformance.Package
