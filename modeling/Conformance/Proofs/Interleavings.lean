/-
Conformance/Proofs/Interleavings.lean

The steps of a description commute as far as they are independent.

A blueprint is written step by step: a type, several types, or a member for a
type that is declared before or after.  Two sequences of steps *share their
parts* if they declare the same types in the same order and give each type the
same members in the same order; how the steps alternate otherwise is open
(`ShareParts`).

Members given apart are attached one by one, each after a search through the
types as they are by then.  Seen from the types it is simpler: the first type
takes all members given to its name, in order, and leaves the others to the
types behind it (`attachAll_cons`).  So what is attached depends only on what is
given to each name, by induction on the types (`concur_attachAll`).  Names may
be repeated here, and members may be left over in the end; which of those is
reported is the one thing that the order of the steps decides.
-/
import Conformance.Proofs.Declared

namespace Conformance

/-! ### Steps -/

/-- A step in writing a blueprint. -/
inductive Step where
  | type (c : ClassDecl)
  | types (cs : List ClassDecl)
  | member (owner : String) (m : MemberDecl)
  deriving DecidableEq, Repr

namespace Step

/-- The blueprint after a step. -/
def apply (p : Blueprint) : Step → Blueprint
  | type c => p.addClass c
  | types cs => p.addClasses cs
  | member owner m => p.addMember owner m

/-- The types that a step declares. -/
def declares : Step → List ClassDecl
  | type c => [c]
  | types cs => cs
  | member _ _ => []

/-- The members that a step gives to the type with a name. -/
def givesTo (name : String) : Step → List MemberDecl
  | member owner m => if owner = name then [m] else []
  | _ => []

end Step

/-- The blueprint that steps write. -/
def Blueprint.ofSteps (steps : List Step) : Blueprint :=
  steps.foldl Step.apply {}

/-- The steps declare the same types in the same order, and give each type the
same members in the same order. -/
structure ShareParts (steps steps' : List Step) : Prop where
  declares_eq : steps.flatMap Step.declares = steps'.flatMap Step.declares
  givesTo_eq : ∀ name,
    steps.flatMap (Step.givesTo name) = steps'.flatMap (Step.givesTo name)

theorem lateMembersOf_cons (owner : String) (m : MemberDecl)
    (late : List (String × MemberDecl)) (name : String) :
    lateMembersOf ((owner, m) :: late) name
      = (if owner = name then [m] else []) ++ lateMembersOf late name := by
  by_cases h : owner = name <;> simp [lateMembersOf, h]

theorem lateMembersOf_append (late late' : List (String × MemberDecl)) (name : String) :
    lateMembersOf (late ++ late') name
      = lateMembersOf late name ++ lateMembersOf late' name := by
  simp [lateMembersOf]

namespace Step

theorem classes_apply (p : Blueprint) (step : Step) :
    (apply p step).classes = p.classes ++ step.declares := by
  cases step with
  | type c => rfl
  | types cs => rfl
  | member owner m => exact (List.append_nil _).symm

theorem lateMembersOf_apply (p : Blueprint) (step : Step) (name : String) :
    lateMembersOf (apply p step).lateMembers name
      = lateMembersOf p.lateMembers name ++ step.givesTo name := by
  cases step with
  | type c => exact (List.append_nil _).symm
  | types cs => exact (List.append_nil _).symm
  | member owner m =>
    show lateMembersOf (p.lateMembers ++ [(owner, m)]) name = _
    rw [lateMembersOf_append, lateMembersOf_cons]
    exact congrArg _ (List.append_nil _)

/-- What a run of steps adds to a blueprint, whatever it holds already. -/
theorem parts_foldl_apply (p : Blueprint) (steps : List Step) :
    (steps.foldl apply p).classes = p.classes ++ steps.flatMap declares
    ∧ ∀ name, lateMembersOf (steps.foldl apply p).lateMembers name
      = lateMembersOf p.lateMembers name ++ steps.flatMap (givesTo name) := by
  induction steps generalizing p with
  | nil => simp
  | cons step steps ih =>
    obtain ⟨hclasses, hlate⟩ := ih (apply p step)
    refine ⟨?_, fun name => ?_⟩
    · rw [List.foldl_cons, hclasses, classes_apply, List.flatMap_cons, List.append_assoc]
    · rw [List.foldl_cons, hlate, lateMembersOf_apply, List.flatMap_cons, List.append_assoc]

end Step

namespace Blueprint

theorem classes_ofSteps (steps : List Step) :
    (ofSteps steps).classes = steps.flatMap Step.declares :=
  (Step.parts_foldl_apply {} steps).1

theorem lateMembersOf_ofSteps (steps : List Step) (name : String) :
    lateMembersOf (ofSteps steps).lateMembers name
      = steps.flatMap (Step.givesTo name) :=
  (Step.parts_foldl_apply {} steps).2 name

end Blueprint

/-! ### Attaching, seen from the types -/

namespace CodeBase

/-- The members that are given to other names than this one. -/
def lateForOthers (late : List (String × MemberDecl)) (name : String) :
    List (String × MemberDecl) :=
  late.filter fun om => om.1 != name

theorem lateForOthers_cons_of_ne {owner name : String} (h : name ≠ owner)
    (m : MemberDecl) (late : List (String × MemberDecl)) :
    lateForOthers ((owner, m) :: late) name = (owner, m) :: lateForOthers late name := by
  simp [lateForOthers, h.symm]

theorem lateMembersOf_lateForOthers (late : List (String × MemberDecl))
    (name name' : String) :
    lateMembersOf (lateForOthers late name) name'
      = if name' = name then [] else lateMembersOf late name' := by
  unfold lateMembersOf lateForOthers
  rw [List.filter_filter]
  by_cases h : name' = name
  · subst h
    simp
  · -- leaving out another name takes nothing from this one
    rw [if_neg h]
    congr 1
    apply List.filter_congr
    intro om _
    by_cases hom : om.1 = name' <;> simp [hom, h]

/-- The first type takes the members given to its name and leaves the others to
the types behind it. -/
theorem attachAll_cons (c : ClassDecl) (cs : List ClassDecl)
    (late : List (String × MemberDecl)) :
    attachAll (c :: cs) late
      = (attachAll cs (lateForOthers late c.name)).map (c.withLate late :: ·) := by
  induction late generalizing c cs with
  | nil => simp [attachAll, lateForOthers, ClassDecl.withLate, lateMembersOf, Except.map]
  | cons om late ih =>
    obtain ⟨owner, m⟩ := om
    by_cases hc : c.name = owner
    · -- the member joins this type, and the types behind it are not asked
      have hothers : lateForOthers ((owner, m) :: late) c.name
          = lateForOthers late c.name := by
        simp [lateForOthers, hc]
      have hgive : give owner m c = { c with members := c.members ++ [m] } := if_pos hc
      rw [hothers, ← withLate_give, hgive, attachAll, attach, if_pos hc]
      exact ih { c with members := c.members ++ [m] } cs
    · -- the member passes this type by, and joins or fails behind it
      have hgive : give owner m c = c := if_neg hc
      rw [lateForOthers_cons_of_ne hc, ← withLate_give, hgive, attachAll, attach,
        if_neg hc, attachAll]
      rcases attach owner m cs with e | cs'
      · rfl
      · exact ih c cs'

theorem eq_nil_of_lateMembersOf {late : List (String × MemberDecl)}
    (h : ∀ name, lateMembersOf late name = []) : late = [] := by
  rcases late with - | ⟨⟨owner, m⟩, late⟩
  · rfl
  · have howner := h owner
    rw [lateMembersOf_cons, if_pos rfl] at howner
    cases howner

end CodeBase

/-! ### The order of the steps -/

/-- Two computations have the same outcome, or both find a member given to a
type that nobody declares, though perhaps not the same member. -/
inductive Concur {α : Type} : Except BuildError α → Except BuildError α → Prop where
  | same (x : Except BuildError α) : Concur x x
  | ownerless (owner member owner' member' : String) :
      Concur (.error (.unknownOwner owner member))
        (.error (.unknownOwner owner' member'))

namespace Concur

variable {α β : Type} {x y : Except BuildError α}

theorem bind (h : Concur x y) (f : α → Except BuildError β) :
    Concur (x >>= f) (y >>= f) := by
  cases h with
  | same => exact .same _
  | ownerless => exact .ownerless _ _ _ _

theorem map (h : Concur x y) (f : α → β) : Concur (x.map f) (y.map f) := by
  cases h with
  | same => exact .same _
  | ownerless => exact .ownerless _ _ _ _

theorem ok_iff (h : Concur x y) (a : α) : x = .ok a ↔ y = .ok a := by
  cases h with
  | same => exact Iff.rfl
  | ownerless => simp

theorem exists_error_iff (h : Concur x y) :
    (∃ e, x = .error e) ↔ ∃ e, y = .error e := by
  cases h with
  | same => exact Iff.rfl
  | ownerless => simp

end Concur

namespace CodeBase

/-- What is attached depends only on what is given to each name. -/
theorem concur_attachAll {late late' : List (String × MemberDecl)}
    (h : ∀ name, lateMembersOf late name = lateMembersOf late' name)
    (cs : List ClassDecl) : Concur (attachAll cs late) (attachAll cs late') := by
  induction cs generalizing late late' with
  | nil =>
    -- whatever is left over at the end has nobody to join
    rcases late with - | ⟨⟨owner, m⟩, late⟩
    · obtain rfl := eq_nil_of_lateMembersOf fun name => (h name).symm
      exact .same _
    · rcases late' with - | ⟨⟨owner', m'⟩, late'⟩
      · cases eq_nil_of_lateMembersOf h
      · exact .ownerless _ _ _ _
  | cons c cs ih =>
    have hrest : ∀ name, lateMembersOf (lateForOthers late c.name) name
        = lateMembersOf (lateForOthers late' c.name) name := by
      intro name
      rw [lateMembersOf_lateForOthers, lateMembersOf_lateForOthers, h]
    have htaken : c.withLate late = c.withLate late' := by
      rw [ClassDecl.withLate, ClassDecl.withLate, h]
    rw [attachAll_cons, attachAll_cons, htaken]
    exact (ih hrest).map _

end CodeBase

namespace Blueprint

open CodeBase

variable {p : Blueprint} {steps steps' : List Step}

theorem concur_build (h : ShareParts steps steps') :
    Concur (ofSteps steps).build (ofSteps steps').build := by
  have hlate : ∀ name, lateMembersOf (ofSteps steps).lateMembers name
      = lateMembersOf (ofSteps steps').lateMembers name := by
    intro name
    rw [lateMembersOf_ofSteps, lateMembersOf_ofSteps, h.givesTo_eq]
  unfold build
  rw [classes_ofSteps, classes_ofSteps, h.declares_eq]
  exact (concur_attachAll hlate _).bind _

theorem declarations_of_inline (cs : List ClassDecl) :
    declarations { classes := cs } = cs := by
  simp [declarations, ClassDecl.withLate, lateMembersOf]

/-- Members that can be given apart can be written in their types. -/
theorem Valid.inline (hp : p.Valid) : Valid { classes := p.declarations } where
  owners := by simp
  named := by
    rw [declarations, List.forall_mem_map]
    exact hp.named
  nodup := by
    rw [names_declarations]
    exact hp.nodup
  members := by
    rw [declarations_of_inline]
    exact hp.members

theorem build_inline {b : CodeBase} (hb : p.build = .ok b) :
    build { classes := p.declarations } = .ok b := by
  obtain ⟨hp, rfl⟩ := build_eq_ok_iff.mp hb
  refine build_eq_ok_iff.mpr ⟨hp.inline, ?_⟩
  rw [declarations_of_inline]

/-- **Independent steps commute.**  Let two sequences of steps declare the same
types in the same order and give each type the same members in the same order.
Then both fail or both succeed, with one and the same code base: ids, indexes and
all.  If they fail, the error is the same too, unless there are members for types
that nobody declares; then the sequences may run into different ones.  If they
succeed, writing each member at the end of its type's own gives that code base as
well. -/
theorem interleaving_irrelevant (steps steps' : List Step)
    (h : ShareParts steps steps') :
    Concur (ofSteps steps).build (ofSteps steps').build
    ∧ ((∃ e, (ofSteps steps).build = .error e)
      ↔ ∃ e, (ofSteps steps').build = .error e)
    ∧ ∀ b, (ofSteps steps).build = .ok b →
      (ofSteps steps').build = .ok b
      ∧ (ofSteps [.types (ofSteps steps).declarations]).build = .ok b := by
  have hconcur := concur_build h
  refine ⟨hconcur, hconcur.exists_error_iff, ?_⟩
  intro b hb
  exact ⟨(hconcur.ok_iff b).mp hb, build_inline hb⟩

/-- A desk gets its drawers before and after it is declared itself. -/
def furnishing : List Step :=
  [.member "a.Desk" { head := .field "upper" "a.Drawer" },
    .type { name := "a.Desk", members := [{ head := .method "dust" }] },
    .member "a.Drawer" { head := .method "slide" },
    .member "a.Desk" { head := .field "lower" "a.Drawer" },
    .types [{ name := "a.Drawer" }]]

/-- The same with the furniture first. -/
def moving : List Step :=
  [.types [{ name := "a.Desk", members := [{ head := .method "dust" }] },
      { name := "a.Drawer" }],
    .member "a.Desk" { head := .field "upper" "a.Drawer" },
    .member "a.Desk" { head := .field "lower" "a.Drawer" },
    .member "a.Drawer" { head := .method "slide" }]

theorem furnishing_interleaving_irrelevant :
    ShareParts furnishing moving ∧ ∃ b, (ofSteps furnishing).build = .ok b
      ∧ b.elements.map (·.fullName)
        = ["a.Desk", "a.Drawer", "a.Desk.dust()", "a.Desk.upper", "a.Desk.lower",
          "a.Desk.<init>()", "a.Drawer.slide()", "a.Drawer.<init>()"]
      ∧ (ofSteps moving).build = .ok b
      ∧ (ofSteps [.types (ofSteps furnishing).declarations]).build = .ok b := by
  have hparts : ShareParts furnishing moving := by
    refine ⟨rfl, fun name => ?_⟩
    by_cases hdesk : "a.Desk" = name
    · subst hdesk
      rfl
    · simp [furnishing, moving, Step.givesTo, hdesk]
  refine ⟨hparts, _, rfl, rfl, ?_⟩
  exact (interleaving_irrelevant furnishing moving hparts).2.2 _ rfl

-- with two members left over, the order of the steps decides which is reported
example : (ofSteps [.member "a.Attic" { head := .method "creak" },
      .member "a.Cellar" { head := .method "drip" }]).build
    = .error (.unknownOwner "a.Attic" "creak")
  ∧ (ofSteps [.member "a.Cellar" { head := .method "drip" },
      .member "a.Attic" { head := .method "creak" }]).build
    = .error (.unknownOwner "a.Cellar" "drip") := ⟨rfl, rfl⟩

end Blueprint

end Conformance
