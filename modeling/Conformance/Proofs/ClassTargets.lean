/-
Conformance/Proofs/ClassTargets.lean

What the types are called that dependencies run to.

A declaration mentions types and members by name.  A mentioned type counts
without its array marks, and not at all if it is primitive, so the types that
such mentions lead to have the names of classes (`NamesClass`).  The owner of an
accessed member is taken as it is written: that code clones an `int[]` makes a
stub of this name and a dependency on it.  Hence all dependencies run to classes
exactly if every access names one, and a rule that forbids a type does not see
the accesses on arrays of it.

All is read off one equation, which lists what dependencies run to by what is
mentioned (`Depicts.map_targetName?`).
-/
import Mathlib.Tactic.MkIffOfInductiveProp
import Conformance.CodeBase.Model
import Conformance.Proofs.Faults
import Conformance.Proofs.Linked

namespace Conformance

/-! ### Names of classes -/

namespace Name

/-- The name can be that of a class: it is neither that of a primitive type nor
that of an array. -/
@[mk_iff] structure NamesClass (name : String) : Prop where
  not_primitive : isPrimitive name = false
  not_array : ¬ ['[', ']'] <:+ name.toList

instance (name : String) : Decidable (NamesClass name) :=
  decidable_of_iff _ (namesClass_iff name).symm

/-- A name without array marks at its end is its own element type. -/
theorem elementType_of_not_array {name : String}
    (h : ¬ ['[', ']'] <:+ name.toList) : elementType name = name := by
  obtain ⟨⟨depth, hdepth⟩, -⟩ := elementType_spec name
  rcases depth with - | depth
  · have hnone : name.toList = (elementType name).toList ++ [] := hdepth
    rw [List.append_nil] at hnone
    exact (String.toList_inj.mp hnone).symm
  · -- with marks left over, the name would end in one
    refine absurd ⟨(elementType name).toList ++ arrayMarks depth, ?_⟩ h
    rw [hdepth, arrayMarks_succ, List.append_assoc]

theorem elementType_array (name : String) :
    elementType (name ++ "[]") = elementType name := by
  have hmarks : (name ++ "[]").toList.reverse = ']' :: '[' :: name.toList.reverse := by
    rw [String.toList_append, List.reverse_append]
    rfl
  rw [elementType, hmarks]
  rfl

/-- Unless it is primitive, the element type of an array is a class. -/
theorem namesClass_elementType {name : String} (h : isPrimitive name = false) :
    NamesClass (elementType name) := by
  obtain ⟨-, hmarks⟩ := elementType_spec name
  refine ⟨?_, hmarks⟩
  rw [isPrimitive, elementType_of_not_array hmarks]
  exact h

end Name

/-! ### What is mentioned -/

/-- The kind of dependency that a mention stands for, and the name of the type
that it leads to; a primitive type is no matter. -/
def Mention.target? : Mention → Option (DependencyKind × String)
  | .type kind name =>
    if Name.isPrimitive name then none else some (kind, Name.elementType name)
  | .member a => some (.access a.target.kind, a.owner)

/-- What a type and its members mention, in order. -/
def ClassDecl.allMentions (c : ClassDecl) : List Mention :=
  c.mentions ++ c.members.flatMap (·.mentions)

/-- Everything that is mentioned, type by type. -/
def Blueprint.mentions (p : Blueprint) : List Mention :=
  p.declarations.flatMap (·.allMentions)

theorem Mention.target?_array (kind : DependencyKind) (name : String) :
    (Mention.type kind (name ++ "[]")).target? = (Mention.type kind name).target? := by
  have hprimitive : Name.isPrimitive (name ++ "[]") = Name.isPrimitive name := by
    rw [Name.isPrimitive, Name.isPrimitive, Name.elementType_array]
  rw [Mention.target?, Mention.target?, hprimitive, Name.elementType_array]

/-- A mention leads to a class unless it is an access, which leads to whatever
it is made on. -/
theorem Mention.namesClass_or_access {mention : Mention} {kind : DependencyKind}
    {name : String} (h : mention.target? = some (kind, name)) :
    Name.NamesClass name
      ∨ ∃ a, mention = .member a ∧ kind = .access a.target.kind ∧ name = a.owner := by
  rcases mention with ⟨kind', name'⟩ | a
  · rw [Mention.target?] at h
    split at h
    · cases h
    · rename_i hprimitive
      cases h
      exact Or.inl (Name.namesClass_elementType (Bool.eq_false_iff.mpr hprimitive))
  · cases h
    exact Or.inr ⟨a, rfl, rfl, rfl⟩

theorem Mention.map_uses (c : ClassDecl) (m : Option MemberDecl) (mention : Mention) :
    (mention.uses c m).map (fun u => (u.kind, u.targetClass))
      = mention.target?.toList := by
  rcases mention with ⟨kind, name⟩ | a
  · simp only [Mention.uses, typeUses, Mention.target?, Name.isPrimitive,
      List.contains_iff_mem]
    split
    · rfl
    · rfl
  · rfl

theorem ClassDecl.map_uses (c : ClassDecl) :
    c.uses.map (fun u => (u.kind, u.targetClass))
      = c.allMentions.filterMap Mention.target? := by
  simp only [← ClassDecl.flatMap_mentions, ← MemberDecl.flatMap_mentions,
    List.map_append, List.map_flatMap, Mention.map_uses, ClassDecl.allMentions,
    List.filterMap_eq_flatMap_toList, List.flatMap_append, List.flatMap_assoc]

/-- The accesses among what is mentioned are those of methods and
constructors. -/
theorem Blueprint.member_mem_mentions {p : Blueprint} {a : AccessDecl} :
    .member a ∈ p.mentions ↔ ∃ c ∈ p.declarations, ∃ m ∈ c.members,
      m.kind.isCodeUnit = true ∧ a ∈ m.accesses := by
  have hmember : ∀ m : MemberDecl,
      .member a ∈ m.mentions ↔ m.kind.isCodeUnit = true ∧ a ∈ m.accesses := by
    intro m
    simp [MemberDecl.mentions, MemberDecl.mentionedAccesses]
  simp [Blueprint.mentions, ClassDecl.allMentions, ClassDecl.mentions, hmember]

/-! ### What dependencies run to -/

namespace CodeBase

variable {b : CodeBase} {cs : List ClassDecl}

/-- The name of the type that a dependency runs to, or to a member of. -/
def targetName? (b : CodeBase) (d : Dependency) : Option String :=
  (b.element? d.targetClass).map (·.fullName)

theorem Records.targetName? {u : Use} {d : Dependency} (hb : b.Indexed)
    (h : b.Records u d) : b.targetName? d = some u.targetClass := by
  obtain ⟨⟨e, he, hid, -, hname⟩, -⟩ := h.target
  rw [CodeBase.targetName?, ← hid, hb.element?_of_mem he, Option.map_some, hname]

/-- What dependencies run to is what is mentioned, in order. -/
theorem Depicts.map_targetName? (h : b.Depicts cs) :
    b.dependencies.map (fun d => (d.kind, b.targetName? d))
      = ((cs.flatMap (·.allMentions)).filterMap Mention.target?).map
        fun t => (t.1, some t.2) := by
  have huses : b.dependencies.map (fun d => (d.kind, b.targetName? d))
      = (cs.flatMap (·.uses)).map fun u => (u.kind, some u.targetClass) := by
    -- uses and dependencies stand side by side
    rw [← List.forall₂_eq_eq_eq, List.forall₂_map_left_iff, List.forall₂_map_right_iff]
    refine h.edges.flip.imp ?_
    intro d u hrecords
    exact Prod.ext hrecords.kind_eq (hrecords.targetName? h.sound.indexed)
  rw [huses, List.filterMap_flatMap]
  simp only [← ClassDecl.map_uses, List.map_flatMap, List.map_map, Function.comp_def]

theorem endsIn_ofType {name : String} {d : Dependency} :
    b.model.endsIn (.ofType name) d = true ↔ b.targetName? d = some name := by
  rw [CodeModel.endsIn_iff, targetName?, Option.map_eq_some_iff]
  exact exists_congr fun e => and_congr_right fun _ => beq_iff_eq

end CodeBase

namespace Blueprint

variable {p : Blueprint} {b : CodeBase} {d : Dependency} {kind : DependencyKind}
  {name : String}

theorem exists_mention (h : p.build = .ok b) (hd : d ∈ b.dependencies) :
    ∃ mention ∈ p.mentions, ∃ name, mention.target? = some (d.kind, name)
      ∧ b.targetName? d = some name := by
  have hmem := List.mem_map_of_mem (f := fun d => (d.kind, b.targetName? d)) hd
  rw [(depicts_build h).map_targetName?] at hmem
  obtain ⟨⟨kind, name⟩, htarget, heq⟩ := List.mem_map.mp hmem
  obtain ⟨mention, hmention, hsome⟩ := List.mem_filterMap.mp htarget
  obtain ⟨hkind, hname⟩ := Prod.mk.inj heq
  exact ⟨mention, hmention, name, hkind ▸ hsome, hname.symm⟩

theorem exists_dependency {mention : Mention} (h : p.build = .ok b)
    (hmention : mention ∈ p.mentions) (htarget : mention.target? = some (kind, name)) :
    ∃ d ∈ b.dependencies, d.kind = kind ∧ b.targetName? d = some name := by
  have hmem := List.mem_map_of_mem (f := fun t : DependencyKind × String => (t.1, some t.2))
    (List.mem_filterMap.mpr ⟨mention, hmention, htarget⟩)
  rw [Blueprint.mentions, ← (depicts_build h).map_targetName?] at hmem
  obtain ⟨d, hd, heq⟩ := List.mem_map.mp hmem
  obtain ⟨hkind, hname⟩ := Prod.mk.inj heq
  exact ⟨d, hd, hkind, hname⟩

/-- The type of a field, a parameter or a result, and an annotation, superclass
or interface, is a class where a dependency runs to it. -/
theorem namesClass_of_not_access (h : p.build = .ok b) (hd : d ∈ b.dependencies)
    (hkind : d.kind.isAccess = false) :
    ∃ name, b.targetName? d = some name ∧ Name.NamesClass name := by
  obtain ⟨mention, -, name, htarget, hname⟩ := exists_mention h hd
  refine ⟨name, hname, ?_⟩
  rcases Mention.namesClass_or_access htarget with hclass | ⟨a, -, haccess, -⟩
  · exact hclass
  · rw [haccess] at hkind
    cases hkind

/-- All dependencies run to classes exactly if all accesses are made on
classes. -/
theorem forall_namesClass_iff (h : p.build = .ok b) :
    (∀ d ∈ b.dependencies, ∃ name, b.targetName? d = some name ∧ Name.NamesClass name)
      ↔ ∀ a, .member a ∈ p.mentions → Name.NamesClass a.owner := by
  constructor
  · intro hall a ha
    -- the access has a dependency of its own, to where it is made
    obtain ⟨d, hd, -, hname⟩ := exists_dependency h ha rfl
    obtain ⟨name, hname', hclass⟩ := hall d hd
    rw [hname] at hname'
    obtain rfl := Option.some.inj hname'
    exact hclass
  · intro hall d hd
    obtain ⟨mention, hmention, name, htarget, hname⟩ := exists_mention h hd
    refine ⟨name, hname, ?_⟩
    rcases Mention.namesClass_or_access htarget with hclass | ⟨a, rfl, -, rfl⟩
    · exact hclass
    · exact hall a hmention

/-- **Dependencies run to what is named.**  In order, the dependencies of a
built code base run to the types that its mentions lead to.  A mentioned type
leads to a class or to nothing, and its array marks make no difference.  An
access leads to the type that it is written on, whatever its name, so all
dependencies run to classes exactly if the accesses of methods and constructors
are made on classes.  A rule that forbids a type by its name sees the
dependencies that run to this name, and no others. -/
theorem targets_are_named (h : p.build = .ok b) :
    b.dependencies.map (fun d => (d.kind, b.targetName? d))
      = (p.mentions.filterMap Mention.target?).map (fun t => (t.1, some t.2))
    ∧ (∀ d ∈ b.dependencies, d.kind.isAccess = false →
      ∃ name, b.targetName? d = some name ∧ Name.NamesClass name)
    ∧ (∀ kind name, (Mention.type kind (name ++ "[]")).target?
      = (Mention.type kind name).target?)
    ∧ ((∀ d ∈ b.dependencies,
        ∃ name, b.targetName? d = some name ∧ Name.NamesClass name)
      ↔ ∀ c ∈ p.declarations, ∀ m ∈ c.members, m.kind.isCodeUnit = true →
        ∀ a ∈ m.accesses, Name.NamesClass a.owner)
    ∧ ∀ name d, b.model.endsIn (.ofType name) d = true
      ↔ b.targetName? d = some name := by
  refine ⟨(depicts_build h).map_targetName?, ?_, Mention.target?_array, ?_, ?_⟩
  · intro d hd hkind
    exact namesClass_of_not_access h hd hkind
  · rw [forall_namesClass_iff h]
    simp only [member_mem_mentions]
    constructor
    · intro hall c hc m hm hcode a ha
      exact hall a ⟨c, hc, m, hm, hcode, ha⟩
    · rintro hall a ⟨c, hc, m, hm, hcode, ha⟩
      exact hall c hc m hm hcode a ha
  · intro name d
    exact CodeBase.endsIn_ofType

/-- An almanac has dates in rows, and a method that copies one row: a parameter
of a primitive type counts for nothing, a field's type for a class, and the
access for an array. -/
def almanac : Blueprint where
  classes :=
    [{ name := "a.Almanac"
       members :=
        [{ head := .field "rows" "java.util.Date[][]" },
          { head := .method "copy", parameters := ["int[]"]
            accesses :=
              [{ owner := "java.util.Date[]", target := .method "clone" [] }] }] }]

/-- Whoever forbids dates is told of the field only. -/
theorem almanac_targets_are_named : ∃ b, almanac.build = .ok b
    ∧ b.dependencies.map (fun d => (d.kind, b.targetName? d))
      = [(.fieldType, some "java.util.Date"),
        (.access .method, some "java.util.Date[]")]
    ∧ (b.dependencies.filter (b.model.endsIn (.ofType "java.util.Date"))).map (·.kind)
      = [.fieldType]
    ∧ ∀ d ∈ b.dependencies, d.kind.isAccess = false →
      ∃ name, b.targetName? d = some name ∧ Name.NamesClass name := by
  obtain ⟨hnamed, hclasses, -, -, -⟩ := targets_are_named (p := almanac) rfl
  exact ⟨_, rfl, hnamed.trans (by decide), by decide, hclasses⟩

/-- A gauge copies its readings, an array of a primitive type. -/
def gauge : Blueprint where
  classes :=
    [{ name := "a.Gauge"
       members :=
        [{ head := .method "copy"
           accesses := [{ owner := "int[]", target := .method "clone" [] }] }] }]

/-- The array becomes a type that a dependency runs to, primitive though its
elements are. -/
theorem gauge_runs_to_array : ∃ b, gauge.build = .ok b
    ∧ b.dependencies.map (fun d => (d.kind, b.targetName? d))
      = [(.access .method, some "int[]")]
    ∧ Name.isPrimitive "int[]" = true
    ∧ ¬ ∀ d ∈ b.dependencies,
      ∃ name, b.targetName? d = some name ∧ Name.NamesClass name := by
  refine ⟨_, rfl, by decide, by decide, ?_⟩
  rw [forall_namesClass_iff (p := gauge) rfl]
  intro hall
  have hclass : Name.NamesClass "int[]" :=
    hall { owner := "int[]", target := .method "clone" [] } (by decide)
  exact absurd hclass (by decide)

end Blueprint

end Conformance
