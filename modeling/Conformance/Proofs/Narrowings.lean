/-
Conformance/Proofs/Narrowings.lean

Narrowing a selection again and again is narrowing it once.

There are two ways to ask for several properties: to narrow a selection by each of
them, or to join them by `and` first, in whatever brackets.  The two are put in
words and tested by different means.  A selection keeps a list, which it joins with
" and " and asks all of; a conjunction is a predicate like any other, put in words
and tested pair by pair.

Both come down to the list of properties that are joined (`Conjunction.parts`).  A
conjunction has them all if each part holds (`holds_predicate`), and its words are
theirs joined (`description_predicate`); so joining what is joined already makes no
difference (`intercalate_flatten`), and rules that ask for the same properties in
the same order differ in nothing that shows (`should_thatEach`).  This includes the
words, under which a rule without a name is configured.
-/
import Conformance.Proofs.Checks

namespace Conformance

/-- Words that are joined group by group are joined as a whole, if no group is
empty. -/
theorem intercalate_flatten (sep : String) {groups : List (List String)}
    (h : ∀ group ∈ groups, group ≠ []) :
    sep.intercalate (groups.map sep.intercalate) = sep.intercalate groups.flatten := by
  induction groups with
  | nil => rfl
  | cons group groups ih =>
    obtain ⟨hgroup, hgroups⟩ := List.forall_mem_cons.mp h
    rcases groups with - | ⟨next, groups⟩
    · simp
    · -- something follows on either side, so there is a separator at the seam
      have hrest : (next :: groups).flatten ≠ [] := by
        obtain ⟨hnext, -⟩ := List.forall_mem_cons.mp hgroups
        simp [hnext]
      have hseam : sep.intercalate
            ([sep.intercalate group] ++ (next :: groups).map sep.intercalate)
          = sep.intercalate group ++ sep
            ++ sep.intercalate ((next :: groups).map sep.intercalate) := by
        rw [String.intercalate_append_of_ne_nil (by simp) (by simp),
          String.intercalate_singleton]
      rw [List.flatten_cons, String.intercalate_append_of_ne_nil hgroup hrest,
        ← ih hgroups]
      exact hseam

/-! ### Conjunctions -/

/-- A way to join predicates by `and`, two at a time. -/
inductive Conjunction where
  | single (p : Predicate)
  | both (left right : Conjunction)

namespace Conjunction

/-- The predicate that is written with these brackets. -/
def predicate : Conjunction → Predicate
  | single p => p
  | both left right => .and left.predicate right.predicate

/-- The predicates that are joined, from left to right. -/
def parts : Conjunction → List Predicate
  | single p => [p]
  | both left right => left.parts ++ right.parts

theorem parts_ne_nil (t : Conjunction) : t.parts ≠ [] := by
  induction t with
  | single p => exact List.cons_ne_nil _ _
  | both left right ihl _ => exact List.append_ne_nil_of_left_ne_nil ihl _

/-- An element has the joined property if it has every part. -/
theorem holds_predicate (m : CodeModel) (e : Element) (t : Conjunction) :
    t.predicate.holds m e = t.parts.all fun p => p.holds m e := by
  induction t with
  | single p => simp [predicate, parts]
  | both left right ihl ihr =>
    rw [predicate, Predicate.holds, ihl, ihr, parts, List.all_append]

/-- Brackets do not show in words. -/
theorem description_predicate (t : Conjunction) :
    t.predicate.description
      = " and ".intercalate (t.parts.map (·.description)) := by
  induction t with
  | single p => simp [predicate, parts]
  | both left right ihl ihr =>
    have hleft : left.parts.map (·.description) ≠ [] := by
      simpa using left.parts_ne_nil
    have hright : right.parts.map (·.description) ≠ [] := by
      simpa using right.parts_ne_nil
    show left.predicate.description ++ " and " ++ right.predicate.description = _
    rw [parts, List.map_append, String.intercalate_append_of_ne_nil hleft hright,
      ← ihl, ← ihr]

end Conjunction

/-! ### Rules that cannot be told apart -/

/-- What is said about a rule beside its selection and condition. -/
structure Remarks where
  reason : Option String := none
  name : Option String := none
  priority : Priority := .medium
  allowEmpty : Option Bool := none

namespace Rule

/-- The rule with these remarks. -/
def remarked (r : Rule) (remarks : Remarks) : Rule :=
  { r with
    reason := remarks.reason
    name := remarks.name
    priority := remarks.priority
    allowEmpty := remarks.allowEmpty }

/-- The rules are described alike, configured under the same key, and come to the
same on every model. -/
structure Indistinct (r r' : Rule) : Prop where
  description_eq : r'.description = r.description
  key_eq : r'.key = r.key
  evaluate_eq : ∀ m config, r'.evaluate m config = r.evaluate m config
  check_eq : ∀ m config, r'.check m config = r.check m config

/-- How a rule keeps what it asks for does not show, as long as it asks for the
same. -/
theorem indistinct_of_filters (r : Rule) {filters : List Predicate}
    (h : ∀ m e, (filters.all fun p => p.holds m e) = r.filters.all fun p => p.holds m e) :
    r.Indistinct { r with filters } := by
  have hevaluate : ∀ m config,
      { r with filters }.evaluate m config = r.evaluate m config := by
    intro m config
    have hrun : { r with filters }.run m = r.run m :=
      run_congr rfl (h m) fun _ => rfl
    rw [evaluate, hrun]
    rfl
  refine ⟨rfl, rfl, hevaluate, fun m config => ?_⟩
  rw [check, check, hevaluate]

end Rule

/-! ### Selections -/

namespace Selection

open Conjunction

/-- Narrows a selection by one conjunction after the other. -/
def thatEach (s : Selection) (groups : List Conjunction) : Selection :=
  groups.foldl (fun s t => s.that t.predicate) s

theorem thatEach_eq (s : Selection) (groups : List Conjunction) :
    s.thatEach groups = { s with filters := s.filters ++ groups.map (·.predicate) } := by
  induction groups generalizing s with
  | nil => simp [thatEach]
  | cons t groups ih =>
    show (s.that t.predicate).thatEach groups = _
    rw [ih, that, List.map_cons, List.append_assoc]
    rfl

/-- The words of a narrowed selection are those of the parts, joined. -/
theorem intercalate_filters_thatEach (s : Selection) (groups : List Conjunction) :
    " and ".intercalate ((s.thatEach groups).filters.map (·.description))
      = " and ".intercalate
        ((s.filters ++ groups.flatMap parts).map (·.description)) := by
  -- what the selection was narrowed by before stands in groups of one
  have hgroups : (s.thatEach groups).filters.map (·.description)
      = (s.filters.map (fun p => [p.description])
          ++ groups.map fun t => t.parts.map (·.description)).map
        " and ".intercalate := by
    simp [thatEach_eq, description_predicate, Function.comp_def]
  have hflat : (s.filters ++ groups.flatMap parts).map (·.description)
      = (s.filters.map (fun p => [p.description])
          ++ groups.map fun t => t.parts.map (·.description)).flatten := by
    rw [List.flatten_append, ← List.flatMap_def, ← List.flatMap_def,
      ← List.map_eq_flatMap, List.map_append, List.map_flatMap]
  rw [hgroups, hflat]
  apply intercalate_flatten
  intro group hgroup
  rcases List.mem_append.mp hgroup with hgroup | hgroup
  · obtain ⟨p, -, rfl⟩ := List.mem_map.mp hgroup
    exact List.cons_ne_nil _ _
  · obtain ⟨t, -, rfl⟩ := List.mem_map.mp hgroup
    simpa using t.parts_ne_nil

/-- A selection is narrowed by no conjunction if these have no parts. -/
theorem isEmpty_filters_thatEach (s : Selection) (groups : List Conjunction) :
    (s.thatEach groups).filters.isEmpty
      = (s.filters ++ groups.flatMap parts).isEmpty := by
  rw [Bool.eq_iff_iff, List.isEmpty_iff, List.isEmpty_iff, thatEach_eq]
  rcases groups with - | ⟨t, groups⟩
  · simp
  · simp [t.parts_ne_nil]

theorem description_thatEach (s : Selection) (groups : List Conjunction) :
    (s.thatEach groups).description
      = { s with filters := s.filters ++ groups.flatMap parts }.description := by
  unfold description
  rw [intercalate_filters_thatEach, isEmpty_filters_thatEach, thatEach_eq]

/-- An element is selected if it has all that was asked for, in groups or not. -/
theorem all_filters_thatEach (s : Selection) (groups : List Conjunction)
    (m : CodeModel) (e : Element) :
    ((s.thatEach groups).filters.all fun p => p.holds m e)
      = (s.filters ++ groups.flatMap parts).all fun p => p.holds m e := by
  rw [thatEach_eq, List.all_append, List.all_append, List.all_map, List.all_flatMap]
  congr 2
  funext t
  exact holds_predicate m e t

variable {groups groups' : List Conjunction}

/-- Rules that ask for the same properties in the same order are the same but for
how they keep them. -/
theorem should_thatEach (s : Selection) (c : Condition)
    (h : groups.flatMap parts = groups'.flatMap parts) :
    (s.thatEach groups').should c
      = { (s.thatEach groups).should c with
          filters := (s.thatEach groups').filters } := by
  have hdescription : (s.thatEach groups').description = (s.thatEach groups).description := by
    rw [description_thatEach, description_thatEach, h]
  unfold should
  rw [hdescription, thatEach_eq, thatEach_eq]

/-- What is asked for may come in any order: the same elements are checked. -/
theorem run_should_perm (s : Selection) (c : Condition) (m : CodeModel)
    (h : (groups.flatMap parts).Perm (groups'.flatMap parts)) :
    ((s.thatEach groups').should c).run m = ((s.thatEach groups).should c).run m := by
  apply Rule.run_congr
  · show Scope.select m (s.thatEach groups').scope = Scope.select m (s.thatEach groups).scope
    rw [thatEach_eq, thatEach_eq]
  · intro e
    show ((s.thatEach groups').filters.all fun p => p.holds m e)
      = (s.thatEach groups).filters.all fun p => p.holds m e
    rw [all_filters_thatEach, all_filters_thatEach]
    exact (h.append_left s.filters).all_eq.symm
  · intro e
    show Condition.check m e (if (s.thatEach groups').negated then .never c else c)
      = Condition.check m e (if (s.thatEach groups).negated then .never c else c)
    rw [thatEach_eq, thatEach_eq]

/-- **Repeated narrowing is one conjunction.**  However the properties that a rule
asks for are put in groups and brackets, and whatever else is said about the rule,
it is described alike, configured under the same key, and evaluates and checks
alike on every model, verdicts and errors included.  In whatever order they come,
as many elements are selected and the events are the same, or the contradiction
is. -/
theorem grouping_irrelevant (s : Selection) (groups groups' : List Conjunction)
    (c : Condition) :
    (groups.flatMap parts = groups'.flatMap parts → ∀ remarks : Remarks,
      (((s.thatEach groups).should c).remarked remarks).Indistinct
        (((s.thatEach groups').should c).remarked remarks))
    ∧ ((groups.flatMap parts).Perm (groups'.flatMap parts) → ∀ m,
      ((s.thatEach groups').should c).run m = ((s.thatEach groups).should c).run m) := by
  refine ⟨fun h remarks => ?_, fun hperm m => s.run_should_perm c m hperm⟩
  rw [s.should_thatEach c h]
  apply Rule.indistinct_of_filters
  intro m e
  show _ = (s.thatEach groups).filters.all fun p => p.holds m e
  rw [all_filters_thatEach, all_filters_thatEach, h]

/-- Three animals, two of which are tame. -/
def farm : CodeModel where
  classes :=
    [{ id := 0, kind := .type, name := "Cat", fullName := "a.Cat"
       annotations := [{ typeName := "a.Tame" }] },
      { id := 1, kind := .type, name := "Dog", fullName := "a.Dog"
        annotations := [{ typeName := "a.Tame" }] },
      { id := 2, kind := .type, name := "Fox", fullName := "a.Fox" }]
  element? _ := none
  classNamed? _ := none
  membersOf _ := []
  dependencies := []

/-- Being tame, being no dog, and being no fox, one by one. -/
def petParts : List Conjunction :=
  [.single (.annotatedWith "a.Tame"), .single (.not (.ofType "a.Dog")),
    .single (.not (.ofType "a.Fox"))]

/-- The same with the first two joined. -/
def petGroups : List Conjunction :=
  [.both (.single (.annotatedWith "a.Tame")) (.single (.not (.ofType "a.Dog"))),
    .single (.not (.ofType "a.Fox"))]

/-- Every animal is found to purr. -/
def purring : Condition :=
  .custom "purr" fun _ e => { events := [.satisfied (.element e.id) e.name] }

/-- In groups or one by one, only the cat is left, and the rule says so in the same
words; backwards it is left as well. -/
theorem farm_grouping_irrelevant :
    ((classes.thatEach petGroups).should purring).evaluate farm {}
        = .ok
          { rule := "classes that are annotated with @Tame and not are of type a.Dog "
              ++ "and not are of type a.Fox should purr"
            checked := 1
            events := [.satisfied (.element 0) "Cat"] }
      ∧ ((classes.thatEach petParts).should purring).evaluate farm {}
        = ((classes.thatEach petGroups).should purring).evaluate farm {}
      ∧ ((classes.thatEach petParts).should purring).key
        = ((classes.thatEach petGroups).should purring).key
      ∧ ((classes.thatEach petParts.reverse).should purring).run farm
        = ((classes.thatEach petGroups).should purring).run farm := by
  have hgroups := (grouping_irrelevant classes petGroups petParts purring).1 rfl {}
  have hbackwards := (grouping_irrelevant classes petGroups petParts.reverse purring).2
    (List.reverse_perm _).symm
  exact ⟨by decide +kernel, hgroups.evaluate_eq farm {}, hgroups.key_eq, hbackwards farm⟩

end Selection

end Conformance
