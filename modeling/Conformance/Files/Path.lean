/-
Conformance/Files/Path.lean

Paths, as text.  A path is a sequence of names between slashes; a slash in
front makes it absolute.  Empty names and single dots lead nowhere and do not
count, except for a dot at the very front, which is kept.  Nothing is
normalised: a path put together from others is still the text it was made
from, and so is each of its ancestors.
-/
import Conformance.Text.Cut

namespace Conformance.Path

/-- Whether a path starts at the root of all files. -/
def isAbsolute (path : String) : Bool :=
  path.toList.head? == some '/'

/-- A path continued by another; an absolute one replaces it. -/
def join (path next : String) : String :=
  if isAbsolute next || path = "" then next
  else if path.toList.getLast? = some '/' then path ++ next
  else path ++ "/" ++ next

/-- Names that lead nowhere. -/
def isIdle (name : List Char) : Bool :=
  name = [] || name = ['.']

/-- The part of a path that no name belongs to (a slash or a dot in front),
and the names after it. -/
def split (path : List Char) : List Char × List (List Char) :=
  match path with
  | '/' :: rest => (['/'], Text.pieces '/' rest)
  | ['.'] => (['.'], [[]])
  | '.' :: '/' :: rest => (['.'], [] :: Text.pieces '/' rest)
  | _ => ([], Text.pieces '/' path)

/-- The text of a path, given its front and its names, last name first; names
at the end that lead nowhere are left out. -/
def textOf (front : List Char) (names : List (List Char)) : String :=
  String.ofList
    (front ++ ['/'].intercalate (names.dropWhile isIdle).reverse)

/-- The paths that arise by dropping names from the end, given the front of
the path and its names, last name first. -/
def parents (front : List Char) : List (List Char) → List String
  | [] => if front = ['.'] then [""] else []
  | name :: names =>
    if isIdle name then parents front names
    else textOf front names :: parents front names

/-- A path and all it lies in, from the inside out. -/
def ancestors (path : String) : List String :=
  let (front, names) := split path.toList
  path :: parents front names.reverse

end Conformance.Path
