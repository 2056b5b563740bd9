/-
Conformance/Proofs/Folders.lean

Folders by the names that lead to them.

A path is text, and many texts lead to one folder: a slash may be doubled, a
slash or a dot may come last.  What counts are the names between the slashes
that lead somewhere (`Path.names`).  Everything that is done with the absolute
path of a folder can be said by its names:

* the paths of its ancestors have its names up to some point, from the longest
  to the shortest (`map_names_ancestors`);
* what lies in it is found by following its names from the root of all files
  (`Disk.stored_join`), whichever of the texts was used.

The second is not true of a path by itself, for a dot at its end asks for a
folder.  With one more name after it, that is asked for anyway.
-/
import Mathlib.Data.List.Infix
import Conformance.Files.Disk

namespace Conformance

namespace Path

/-- The names that lead from the root of all files to what a path means. -/
def names (path : String) : List (List Char) :=
  (Text.pieces '/' path.toList).filter fun name => !isIdle name

/-! ### Absolute paths -/

theorem isAbsolute_iff {path : String} :
    isAbsolute path = true ↔ ∃ rest, path.toList = '/' :: rest := by
  rw [isAbsolute, beq_iff_eq, List.head?_eq_some_iff]

theorem ne_empty_of_isAbsolute {path : String} (h : isAbsolute path = true) :
    path ≠ "" := by
  rintro rfl
  cases h

theorem toList_textOf (ns : List (List Char)) :
    (textOf ['/'] ns).toList
      = '/' :: ['/'].intercalate (ns.dropWhile isIdle).reverse :=
  String.toList_ofList

theorem isAbsolute_textOf (ns : List (List Char)) :
    isAbsolute (textOf ['/'] ns) = true :=
  isAbsolute_iff.mpr ⟨_, toList_textOf ns⟩

/-- The slash in front belongs to no name. -/
theorem names_of_toList {path : String} {rest : List Char}
    (h : path.toList = '/' :: rest) :
    names path = (Text.pieces '/' rest).filter fun name => !isIdle name := by
  rw [names, h, Text.pieces_cons_sep]
  rfl

/-! ### Ancestors -/

theorem filter_dropWhile_isIdle (ns : List (List Char)) :
    (ns.dropWhile isIdle).filter (fun name => !isIdle name)
      = ns.filter fun name => !isIdle name := by
  induction ns with
  | nil => rfl
  | cons n ns ih =>
    rcases hn : isIdle n with - | -
    · simp [hn]
    · simp [hn, ih]

/-- The names of a path that was put together from names. -/
theorem names_textOf {ns : List (List Char)} (h : ∀ name ∈ ns, '/' ∉ name) :
    names (textOf ['/'] ns) = (ns.filter fun name => !isIdle name).reverse := by
  rw [names_of_toList (toList_textOf ns), ← filter_dropWhile_isIdle ns,
    ← List.filter_reverse]
  have hparts : ∀ name ∈ (ns.dropWhile isIdle).reverse, '/' ∉ name := by
    intro name hname
    exact h name (List.dropWhile_subset _ (List.mem_reverse.mp hname))
  by_cases hnil : (ns.dropWhile isIdle).reverse = []
  · -- no name is left, and the text after the slash is one empty piece
    rw [hnil]
    rfl
  · rw [Text.pieces_eq_splitOn, List.splitOn_intercalate _ hparts hnil]

/-- Names are dropped one by one from the end. -/
theorem map_names_parents {ns : List (List Char)} (h : ∀ name ∈ ns, '/' ∉ name) :
    (ns.filter fun name => !isIdle name).reverse :: (parents ['/'] ns).map names
      = (ns.filter fun name => !isIdle name).reverse.inits.reverse := by
  induction ns with
  | nil => rfl
  | cons n ns ih =>
    obtain ⟨-, hns⟩ := List.forall_mem_cons.mp h
    rcases hn : isIdle n with - | -
    · -- a name that leads somewhere: the rest of the path is the next ancestor
      have hrest := ih hns
      simp only [parents, hn, Bool.false_eq_true, if_false, List.map_cons,
        names_textOf hns, hrest]
      simp [hn, List.inits_append]
    · have hsame : (n :: ns).filter (fun name => !isIdle name)
          = ns.filter fun name => !isIdle name := by
        simp [hn]
      rw [hsame, parents, if_pos hn]
      exact ih hns

/-- The ancestors of an absolute path have the prefixes of its names, longest
first. -/
theorem map_names_ancestors {path : String} (h : isAbsolute path = true) :
    (ancestors path).map names = (names path).inits.reverse := by
  obtain ⟨rest, hrest⟩ := isAbsolute_iff.mp h
  have hpieces : ∀ name ∈ (Text.pieces '/' rest).reverse, '/' ∉ name := by
    intro name hname
    exact Text.not_mem_of_mem_pieces (List.mem_reverse.mp hname)
  have hparents := map_names_parents hpieces
  rw [List.filter_reverse, List.reverse_reverse, ← names_of_toList hrest] at hparents
  rw [← hparents, ancestors, hrest]
  rfl

theorem isAbsolute_of_mem_parents {path : String} {ns : List (List Char)}
    (hpath : path ∈ parents ['/'] ns) : isAbsolute path = true := by
  induction ns with
  | nil => cases hpath
  | cons n ns ih =>
    rw [parents] at hpath
    split at hpath
    · exact ih hpath
    · rcases List.mem_cons.mp hpath with rfl | hpath
      · exact isAbsolute_textOf ns
      · exact ih hpath

theorem isAbsolute_of_mem_ancestors {path folder : String}
    (h : isAbsolute path = true) (hfolder : folder ∈ ancestors path) :
    isAbsolute folder = true := by
  obtain ⟨rest, hrest⟩ := isAbsolute_iff.mp h
  rw [ancestors, hrest] at hfolder
  rcases List.mem_cons.mp hfolder with rfl | hfolder
  · exact h
  · exact isAbsolute_of_mem_parents hfolder

/-! ### What lies in a folder -/

/-- A name is put behind a path with one slash between them, which may be the
path's own. -/
theorem toList_join {folder name : String} (h : isAbsolute folder = true)
    (hname : '/' ∉ name.toList) :
    ∃ front, (join folder name).toList = front ++ '/' :: name.toList
      ∧ (folder.toList = front ∨ folder.toList = front ++ ['/']) := by
  have hrelative : isAbsolute name = false := by
    rw [Bool.eq_false_iff]
    intro habs
    obtain ⟨rest, hrest⟩ := isAbsolute_iff.mp habs
    rw [hrest] at hname
    exact hname List.mem_cons_self
  have hne := ne_empty_of_isAbsolute h
  unfold join
  rw [hrelative, if_neg (by simpa using hne)]
  split
  · rename_i hlast
    obtain ⟨front, hfront⟩ := List.getLast?_eq_some_iff.mp hlast
    refine ⟨front, ?_, Or.inr hfront⟩
    rw [String.toList_append, hfront, List.append_assoc, List.singleton_append]
  · refine ⟨folder.toList, ?_, Or.inl rfl⟩
    rw [String.toList_append, String.toList_append, List.append_assoc]
    rfl

theorem isAbsolute_join {folder name : String} (h : isAbsolute folder = true)
    (hname : '/' ∉ name.toList) : isAbsolute (join folder name) = true := by
  obtain ⟨rest, hrest⟩ := isAbsolute_iff.mp h
  obtain ⟨front, hjoin, hfront⟩ := toList_join h hname
  apply isAbsolute_iff.mpr
  rw [hjoin]
  rcases front with - | ⟨c, front⟩
  · exact ⟨_, rfl⟩
  · obtain rfl : c = '/' := by
      rcases hfront with hfront | hfront <;>
        exact (List.cons.inj (hfront.symm.trans hrest)).1
    exact ⟨_, rfl⟩

/-- Before the name come those of the path, and some that lead nowhere. -/
theorem pieces_join {folder name : String} (h : isAbsolute folder = true)
    (hname : '/' ∉ name.toList) :
    ∃ ns, Text.pieces '/' (join folder name).toList = ns ++ [name.toList]
      ∧ ns.filter (fun name => !isIdle name) = names folder := by
  obtain ⟨front, hjoin, hfront⟩ := toList_join h hname
  refine ⟨Text.pieces '/' front, ?_, ?_⟩
  · rw [hjoin, Text.pieces_append_sep, Text.pieces_of_not_mem hname]
  · rcases hfront with hfront | hfront
    · rw [names, hfront]
    · -- the slash at the end has an empty name behind it
      rw [names, hfront, Text.pieces_append_sep, List.filter_append]
      exact (List.append_nil _).symm

end Path

namespace Disk

/-- Names that lead nowhere may be left out if one more name follows. -/
theorem follow_filter (disk : Disk) (place : Place) (ns : List (List Char))
    (name : List Char) :
    disk.follow place (ns ++ [name])
      = disk.follow place (ns.filter (fun name => !Path.isIdle name) ++ [name]) := by
  induction ns generalizing place with
  | nil => rfl
  | cons n ns ih =>
    rcases hn : Path.isIdle n with - | -
    · rw [List.filter_cons_of_pos (by simp [hn]), List.cons_append, List.cons_append,
        follow, follow]
      split
      · exact ih _
      · rfl
      · rfl
    · rw [List.filter_cons_of_neg (by simp [hn]), List.cons_append, follow,
        enter, if_pos hn, ih]
      -- both ways, the place has to be a folder
      rcases hrest : ns.filter (fun name => !Path.isIdle name) ++ [name] with - | ⟨r, rs⟩
      · simp at hrest
      · rcases hplace : disk.at? place with - | stored
        · simp [follow, hplace]
        · cases stored <;> simp [follow, hplace]

/-- What lies under a name in the folder that names lead to. -/
def inFolder (disk : Disk) (folder : List (List Char)) (name : String) :
    Except ReadError Stored :=
  disk.follow [] (folder ++ [name.toList])

theorem stored_join (disk : Disk) {folder name : String}
    (h : Path.isAbsolute folder = true) (hname : '/' ∉ name.toList) :
    disk.stored (Path.join folder name) = disk.inFolder (Path.names folder) name := by
  obtain ⟨ns, hpieces, hns⟩ := Path.pieces_join h hname
  have habs := Path.isAbsolute_join h hname
  rw [stored, if_neg (Path.ne_empty_of_isAbsolute habs), start, if_pos habs, hpieces,
    follow_filter, hns]
  rfl

end Disk

end Conformance
