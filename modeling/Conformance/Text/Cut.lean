/-
Conformance/Text/Cut.lean

Cutting text at a separator.  Qualified names, package patterns and member
signatures are all read by three cuts: at the first separator, at the last
one, and at every one.

The functions work on `List Char`, by recursion on the text, so that a
statement about a name is a statement about a list.
-/

namespace Conformance.Text

/-- The parts of a text before and after the first `sep` in it. -/
def firstCut? (sep : Char) : List Char → Option (List Char × List Char)
  | [] => none
  | c :: cs =>
    if c = sep then some ([], cs)
    else (firstCut? sep cs).map fun (front, back) => (c :: front, back)

/-- The parts of a text before and after the last `sep` in it. -/
def lastCut? (sep : Char) : List Char → Option (List Char × List Char)
  | [] => none
  | c :: cs =>
    match lastCut? sep cs with
    | some (front, back) => some (c :: front, back)
    | none => if c = sep then some ([], cs) else none

/-- What stands before the first `sep`: the whole text if it has none. -/
def beforeFirst (sep : Char) (cs : List Char) : List Char :=
  match firstCut? sep cs with
  | some (front, _) => front
  | none => cs

/-- What stands before the last `sep`: nothing if the text has none. -/
def beforeLast (sep : Char) (cs : List Char) : List Char :=
  match lastCut? sep cs with
  | some (front, _) => front
  | none => []

/-- What stands after the last `sep`: the whole text if it has none. -/
def afterLast (sep : Char) (cs : List Char) : List Char :=
  match lastCut? sep cs with
  | some (_, back) => back
  | none => cs

/-- The pieces of a text between its separators, one more than there are
separators; neighbouring separators have an empty piece between them. -/
def pieces (sep : Char) : List Char → List (List Char)
  | [] => [[]]
  | c :: cs =>
    if c = sep then [] :: pieces sep cs
    else
      match pieces sep cs with
      | [] => [[c]]
      | p :: ps => (c :: p) :: ps

/-- The pieces that are not empty, so that runs of separators and
separators at either end do not count. -/
def segments (sep : Char) (cs : List Char) : List (List Char) :=
  (pieces sep cs).filter fun p => !p.isEmpty

/-! ### Reading a cut off

A text that is put together at a separator falls apart there again, if the
separator does not come earlier, or later. -/

theorem firstCut?_append {sep : Char} {front : List Char} (h : sep ∉ front)
    (back : List Char) : firstCut? sep (front ++ sep :: back) = some (front, back) := by
  induction front with
  | nil => rw [List.nil_append, firstCut?, if_pos rfl]
  | cons c front ih =>
    obtain ⟨hc, hfront⟩ := List.ne_and_not_mem_of_not_mem_cons h
    rw [List.cons_append, firstCut?, if_neg hc.symm, ih hfront]
    rfl

theorem lastCut?_of_not_mem {sep : Char} {cs : List Char} (h : sep ∉ cs) :
    lastCut? sep cs = none := by
  induction cs with
  | nil => rfl
  | cons c cs ih =>
    obtain ⟨hc, hcs⟩ := List.ne_and_not_mem_of_not_mem_cons h
    rw [lastCut?, ih hcs]
    exact if_neg hc.symm

theorem lastCut?_append {sep : Char} {back : List Char} (h : sep ∉ back)
    (front : List Char) : lastCut? sep (front ++ sep :: back) = some (front, back) := by
  induction front with
  | nil =>
    rw [List.nil_append, lastCut?, lastCut?_of_not_mem h]
    exact if_pos rfl
  | cons c front ih => rw [List.cons_append, lastCut?, ih]

theorem beforeFirst_append {sep : Char} {front : List Char} (h : sep ∉ front)
    (back : List Char) : beforeFirst sep (front ++ sep :: back) = front := by
  rw [beforeFirst, firstCut?_append h]

theorem beforeLast_append {sep : Char} {back : List Char} (h : sep ∉ back)
    (front : List Char) : beforeLast sep (front ++ sep :: back) = front := by
  rw [beforeLast, lastCut?_append h]

theorem beforeLast_of_not_mem {sep : Char} {cs : List Char} (h : sep ∉ cs) :
    beforeLast sep cs = [] := by
  rw [beforeLast, lastCut?_of_not_mem h]

/-- A text with separators in it has a last one. -/
theorem exists_last_sep {sep : Char} {cs : List Char} (h : sep ∈ cs) :
    ∃ front back, cs = front ++ sep :: back ∧ sep ∉ back := by
  obtain ⟨back, front, heq, hback⟩ := List.eq_append_cons_of_mem (List.mem_reverse.mpr h)
  refine ⟨front.reverse, back.reverse, ?_, mt List.mem_reverse.mp hback⟩
  simpa using congrArg List.reverse heq

/-- The first separator tells what stands before it from what stands after. -/
theorem eq_of_append_first {sep : Char} {front front' back back' : List Char}
    (h : sep ∉ front) (h' : sep ∉ front')
    (heq : front ++ sep :: back = front' ++ sep :: back') :
    front = front' ∧ back = back' := by
  have hcut := congrArg (firstCut? sep) heq
  rw [firstCut?_append h, firstCut?_append h'] at hcut
  exact Prod.mk.inj (Option.some.inj hcut)

/-- The last separator tells what stands before it from what stands after. -/
theorem eq_of_append_last {sep : Char} {front front' back back' : List Char}
    (h : sep ∉ back) (h' : sep ∉ back')
    (heq : front ++ sep :: back = front' ++ sep :: back') :
    front = front' ∧ back = back' := by
  have hcut := congrArg (lastCut? sep) heq
  rw [lastCut?_append h, lastCut?_append h'] at hcut
  exact Prod.mk.inj (Option.some.inj hcut)

/-! ### Pieces and segments -/

/-- The pieces are those of the list library's own cut. -/
theorem pieces_eq_splitOn (sep : Char) (cs : List Char) :
    pieces sep cs = cs.splitOn sep := by
  induction cs with
  | nil => rfl
  | cons c cs ih =>
    rw [pieces, List.splitOn_cons_eq_if_modifyHead, ih]
    by_cases h : c = sep
    · rw [if_pos h, if_pos (beq_iff_eq.mpr h)]
    · rw [if_neg h, if_neg (mt beq_iff_eq.mp h)]
      rcases hcs : cs.splitOn sep with - | ⟨p, ps⟩
      · exact absurd hcs (List.splitOn_ne_nil sep cs)
      · rfl

/-- A separator keeps what stands before it apart from what stands after it. -/
theorem pieces_append_sep (sep : Char) (cs ds : List Char) :
    pieces sep (cs ++ sep :: ds) = pieces sep cs ++ pieces sep ds := by
  simp only [pieces_eq_splitOn, List.splitOn_append_cons_self]

@[simp] theorem pieces_cons_sep (sep : Char) (cs : List Char) :
    pieces sep (sep :: cs) = [] :: pieces sep cs :=
  pieces_append_sep sep [] cs

/-- A text without separators is in one piece. -/
theorem pieces_of_not_mem {sep : Char} {cs : List Char} (h : sep ∉ cs) :
    pieces sep cs = [cs] := by
  rw [pieces_eq_splitOn]
  exact List.splitOn_eq_singleton h

/-- No separator is left in a piece. -/
theorem not_mem_of_mem_pieces {sep : Char} {cs p : List Char}
    (hp : p ∈ pieces sep cs) : sep ∉ p := by
  induction cs generalizing p with
  | nil =>
    obtain rfl : p = [] := List.mem_singleton.mp hp
    exact List.not_mem_nil
  | cons c cs ih =>
    rw [pieces] at hp
    split at hp
    · rcases List.mem_cons.mp hp with rfl | hp
      · exact List.not_mem_nil
      · exact ih hp
    · rename_i hc
      rcases hcs : pieces sep cs with - | ⟨q, qs⟩
      · rw [hcs] at hp
        obtain rfl : p = [c] := List.mem_singleton.mp hp
        simpa using Ne.symm hc
      · rw [hcs] at hp ih
        rcases List.mem_cons.mp hp with rfl | hp
        · have hq : sep ∉ q := ih List.mem_cons_self
          simpa [hq] using Ne.symm hc
        · exact ih (List.mem_cons_of_mem q hp)

@[simp] theorem segments_nil (sep : Char) : segments sep [] = [] := rfl

theorem segments_append_sep (sep : Char) (cs ds : List Char) :
    segments sep (cs ++ sep :: ds) = segments sep cs ++ segments sep ds := by
  rw [segments, pieces_append_sep, List.filter_append]
  rfl

@[simp] theorem segments_cons_sep (sep : Char) (cs : List Char) :
    segments sep (sep :: cs) = segments sep cs :=
  segments_append_sep sep [] cs

/-- A text without separators is a segment by itself. -/
theorem segments_of_not_mem {sep : Char} {cs : List Char} (hne : cs ≠ [])
    (h : sep ∉ cs) : segments sep cs = [cs] := by
  simp [segments, pieces_of_not_mem h, hne]

end Conformance.Text
