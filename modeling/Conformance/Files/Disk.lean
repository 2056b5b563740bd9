/-
Conformance/Files/Disk.lean

A disk: files and folders as they are at one moment, and the folder that
relative paths start from.
-/
import Conformance.Files.Path

namespace Conformance

/-- What is stored at a place. -/
inductive Stored where
  | file (bytes : ByteArray)
  /-- A file that must not be read. -/
  | lockedFile
  | folder

/-- A place on a disk: the names that lead to it, innermost first. -/
abbrev Place := List String

/-- Files and folders, latest first. -/
structure Disk where
  entries : List (Place × Stored)
  /-- Where relative paths start. -/
  workingDirectory : Place

/-- Why a path does not lead to text. -/
inductive ReadError where
  | notFound
  | notAFolder
  | isAFolder
  | denied
  | notText
  deriving DecidableEq, Repr

/-- The error in words. -/
def ReadError.message : ReadError → String
  | notFound => "No such file or directory (os error 2)"
  | notAFolder => "Not a directory (os error 20)"
  | isAFolder => "Is a directory (os error 21)"
  | denied => "Permission denied (os error 13)"
  | notText => "stream did not contain valid UTF-8"

/-- Whether a file is stored, not a folder. -/
def Stored.isFile : Stored → Bool
  | folder => false
  | _ => true

/-- The text that is stored. -/
def Stored.text : Stored → Except ReadError String
  | file bytes =>
    match String.fromUTF8? bytes with
    | some text => .ok text
    | none => .error .notText
  | lockedFile => .error .denied
  | folder => .error .isAFolder

namespace Disk

/-- What is stored at a place; the root folder always exists. -/
def at? (disk : Disk) : Place → Option Stored
  | [] => some .folder
  | place => disk.entries.lookup place

/-! ### Following paths -/

/-- The place that a name leads to. -/
def enter (place : Place) (name : List Char) : Place :=
  if Path.isIdle name then place
  else if name = ['.', '.'] then place.tail
  else String.ofList name :: place

/-- Follows names from a place on.  Every place on the way must be a
folder. -/
def follow (disk : Disk) (place : Place) :
    List (List Char) → Except ReadError Stored
  | [] =>
    match disk.at? place with
    | some stored => .ok stored
    | none => .error .notFound
  | name :: names =>
    match disk.at? place with
    | some .folder => follow disk (enter place name) names
    | some _ => .error .notAFolder
    | none => .error .notFound

/-- Where a path starts. -/
def start (disk : Disk) (path : String) : Place :=
  if Path.isAbsolute path then [] else disk.workingDirectory

/-- What a path leads to; the empty path leads nowhere. -/
def stored (disk : Disk) (path : String) : Except ReadError Stored :=
  if path = "" then .error .notFound
  else disk.follow (disk.start path) (Text.pieces '/' path.toList)

/-- Whether a path leads to a file. -/
def isFile (disk : Disk) (path : String) : Bool :=
  match disk.stored path with
  | .ok stored => stored.isFile
  | .error _ => false

/-- Reads the text of a file. -/
def readText (disk : Disk) (path : String) : Except ReadError String := do
  (← disk.stored path).text

/-! ### Making disks -/

/-- The places that names lead through, from the first to the last. -/
def trail (place : Place) : List (List Char) → List Place
  | [] => [place]
  | name :: names => place :: trail (enter place name) names

/-- The place that a path names, whether or not anything is there. -/
def place (disk : Disk) (path : String) : Place :=
  (Text.pieces '/' path.toList).foldl enter (disk.start path)

/-- Stores something at a path.  Every place that the path leads through and
that is not there yet becomes a folder, even if the path turns back from
it. -/
def write (disk : Disk) (path : String) (what : Stored) : Disk :=
  let passed := (trail (disk.start path) (Text.pieces '/' path.toList)).dropLast
  { disk with
    entries := (disk.place path, what) ::
      (disk.entries ++ passed.map fun place => (place, .folder)) }

/-- A disk with nothing but one folder, where relative paths start. -/
def ofFolder (path : String) : Disk :=
  let bare : Disk := { entries := [], workingDirectory := [] }
  { bare.write path .folder with workingDirectory := bare.place path }

end Disk

end Conformance
