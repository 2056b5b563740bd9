/-
Conformance/Toml/Document.lean

Putting the statements of a TOML document together.

A table can come into being in three ways: by its own header, because the
header of a table inside it mentions it, or because a dotted key does.  What
may be added to it later depends on which of the three it was; and a value,
once given, is closed.
-/
import Conformance.Toml.Value

namespace Conformance.Toml

/-- The parts of a dotted key, outermost first. -/
abbrev Key := List String

/-- What a statement of a document says. -/
inductive Statement where
  /-- What follows belongs to this table. -/
  | table (key : Key)
  /-- What follows belongs to a new element of this array of tables. -/
  | element (key : Key)
  /-- A value for a key. -/
  | pair (key : Key) (value : Value)

/-- How a table came into being. -/
inductive Origin where
  /-- By its own header. -/
  | header
  /-- By the header of a table inside it. -/
  | implied
  /-- By a dotted key. -/
  | dotted
  deriving DecidableEq, Repr

/-- What is known so far of a key. -/
inductive Item where
  | value (v : Value)
  | table (origin : Origin) (entries : List (String × Item))
  /-- An array of tables, made by headers. -/
  | tables (elements : List (List (String × Item)))

/-- The entries of a table that is not finished. -/
abbrev Entries := List (String × Item)

/-- Puts another item in the place of an entry. -/
def replace (key : String) (item : Item) (entries : Entries) : Entries :=
  entries.map fun (k, old) => (k, if k = key then item else old)

/-- The entries under other keys. -/
def without (key : String) (entries : Entries) : Entries :=
  entries.filter fun (k, _) => k ≠ key

/-- Adds a value under a dotted key.  The tables on the way are made as
needed.  Those that are there already may not have a header of their own, and
the innermost one must come from a dotted key. -/
def assign : Key → Value → Entries → Option Entries
  | [], _, _ => none
  | [key], v, entries =>
    if (entries.lookup key).isSome then none
    else some (entries ++ [(key, .value v)])
  | key :: key' :: rest, v, entries =>
    match entries.lookup key with
    | none => do
      let inner ← assign (key' :: rest) v []
      return entries ++ [(key, .table .dotted inner)]
    | some (.value _) => none
    | some (.table origin inner) =>
      if origin = .header || (rest.isEmpty && origin = .implied) then none
      else do
        let inner ← assign (key' :: rest) v inner
        return replace key (.table origin inner) entries
    | some (.tables elements) =>
      if rest.isEmpty then none
      else do
        let inner ← assign (key' :: rest) v (← elements.getLast?)
        return replace key (.tables (elements.dropLast ++ [inner])) entries

/-- Changes the table under a key.  The tables on the way are made as needed;
an array of tables stands for its last element. -/
def change (f : Entries → Option Entries) : Key → Entries → Option Entries
  | [], entries => f entries
  | key :: rest, entries =>
    match entries.lookup key with
    | none => do
      let inner ← change f rest []
      return entries ++ [(key, .table .implied inner)]
    | some (.value _) => none
    | some (.table origin inner) => do
      let inner ← change f rest inner
      return replace key (.table origin inner) entries
    | some (.tables elements) => do
      let inner ← change f rest (← elements.getLast?)
      return replace key (.tables (elements.dropLast ++ [inner])) entries

/-- Opens a table by its header.  It may be there already if a header inside
it has made it; its place is then where its own header stands. -/
def openTable (key : String) (entries : Entries) : Option Entries :=
  match entries.lookup key with
  | none => some (entries ++ [(key, .table .header [])])
  | some (.table .implied inner) =>
    some (without key entries ++ [(key, .table .header inner)])
  | some _ => none

/-- Opens a new element of an array of tables. -/
def openElement (key : String) (entries : Entries) : Option Entries :=
  match entries.lookup key with
  | none => some (entries ++ [(key, .tables [[]])])
  | some (.tables elements) =>
    some (replace key (.tables (elements ++ [[]])) entries)
  | some _ => none

/-- A document of which some statements have been put together. -/
structure Draft where
  entries : Entries := []
  /-- The table that pairs are added to. -/
  current : Key := []

/-- Adds a statement. -/
def Draft.add (d : Draft) : Statement → Option Draft
  | .table key => do
    let last ← key.getLast?
    return ⟨← change (openTable last) key.dropLast d.entries, key⟩
  | .element key => do
    let last ← key.getLast?
    return ⟨← change (openElement last) key.dropLast d.entries, key⟩
  | .pair key value => do
    let entries ← change (assign key value) d.current d.entries
    return { d with entries }

mutual

/-- The finished value of an item. -/
def Item.finish : Item → Value
  | .value v => v
  | .table _ entries => .table (finishEntries entries)
  | .tables elements => .array (finishElements elements)

/-- The finished entries of a table. -/
def finishEntries : List (String × Item) → Table
  | [] => []
  | (key, item) :: entries => (key, item.finish) :: finishEntries entries

/-- The finished elements of an array of tables. -/
def finishElements : List (List (String × Item)) → List Value
  | [] => []
  | entries :: elements =>
    .table (finishEntries entries) :: finishElements elements

end

/-- The table that statements describe, unless they contradict each other. -/
def assemble? (statements : List Statement) : Option Table := do
  let draft ← statements.foldlM Draft.add {}
  return finishEntries draft.entries

/-- The table that key-value pairs describe, unless they contradict each
other. -/
def assignAll (pairs : List (Key × Value)) : Option Table := do
  let entries ← pairs.foldlM (fun entries (key, v) => assign key v entries) []
  return finishEntries entries

end Conformance.Toml
