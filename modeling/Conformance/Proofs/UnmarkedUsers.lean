/-
Conformance/Proofs/UnmarkedUsers.lean

The condition on who may use a type flags exactly the users without a marker.

The condition asks for the dependencies that come to a type from outside, takes
the types in which they start, each where it is first seen, and looks for a
marker on each.  None of the three steps says anything about the order of the
declarations.  That the users come out in this order is again due to the order
of building: what starts in a declared type stands together, so that leaving
out repetitions leaves one entry per type (`Depicts.dependentClasses_eq`).  That
a user is a declared type, and never a stub or the type itself, comes with it.

Whether a user is marked is decided by a search with a bound; it misses no way
of at most `maxMetaDepth` steps (`isMetaAnnotatedWith_iff_leads`).
-/
import Conformance.Proofs.MetaAnnotations
import Conformance.Proofs.Readings

namespace Conformance

open Check

/-! ### Users and their markers -/

namespace CodeModel

variable {m : CodeModel} {e : Element}

/-- One of the markers can be reached from the annotations of an element, in at
most sixteen steps from a type to the type of an annotation on it. -/
def IsMarked (m : CodeModel) (markers : List String) (e : Element) : Prop :=
  ∃ marker ∈ markers, ∃ k ≤ 16, ∃ name ∈ e.markers, m.Leads marker k name

theorem any_isMetaAnnotatedWith_iff {markers : List String} :
    markers.any (m.isMetaAnnotatedWith e) = true ↔ m.IsMarked markers e := by
  simp only [List.any_eq_true, isMetaAnnotatedWith_iff_leads, IsMarked, maxMetaDepth]

end CodeModel

namespace CodeBase

variable {b : CodeBase} {cs : List ClassDecl} {c user : Element}

/-- A declared type has no business with type `c`: it is another one, something
in it uses `c` or a member of `c`, and no marker stands on it. -/
structure Intrudes (b : CodeBase) (markers : List String) (c user : Element) :
    Prop where
  declared : user ∈ b.classes
  other : user.id ≠ c.id
  uses : ∃ d ∈ b.dependencies, d.originClass = user.id ∧ d.targetClass = c.id
  unmarked : ¬ b.model.IsMarked markers user

/-- A dependency that comes to a type from a user is one that starts in another
type and ends in this one. -/
theorem any_enters_iff :
    (b.dependencies.any fun d => d.originClass == user.id && d.enters c.id) = true
      ↔ user.id ≠ c.id
        ∧ ∃ d ∈ b.dependencies, d.originClass = user.id ∧ d.targetClass = c.id := by
  simp only [List.any_eq_true, Dependency.enters, Dependency.isSelfEdge,
    Bool.and_eq_true, Bool.not_eq_true', beq_iff_eq, beq_eq_false_iff_ne]
  constructor
  · rintro ⟨d, hd, hstart, hend, hself⟩
    rw [hstart, hend] at hself
    exact ⟨hself, d, hd, hstart, hend⟩
  · rintro ⟨hother, d, hd, hstart, hend⟩
    refine ⟨d, hd, hstart, hend, ?_⟩
    rw [hstart, hend]
    exact hother

/-- The users that lack every marker, in the order of their declarations. -/
def intruders (b : CodeBase) (markers : List String) (c : Element) : List Element :=
  (b.classes.filter fun user => b.dependencies.any fun d =>
      d.originClass == user.id && d.enters c.id).filter fun user =>
    !markers.any (b.model.isMetaAnnotatedWith user)

theorem mem_intruders {markers : List String} :
    user ∈ b.intruders markers c ↔ b.Intrudes markers c user := by
  rw [intruders, List.mem_filter, List.mem_filter, any_enters_iff,
    Bool.not_eq_true', ← Bool.not_eq_true, CodeModel.any_isMetaAnnotatedWith_iff]
  constructor
  · rintro ⟨⟨hdeclared, hother, huses⟩, hunmarked⟩
    exact ⟨hdeclared, hother, huses, hunmarked⟩
  · intro h
    exact ⟨⟨h.declared, h.other, h.uses⟩, h.unmarked⟩

theorem intruders_sublist (b : CodeBase) (markers : List String) (c : Element) :
    (b.intruders markers c).Sublist b.classes :=
  List.filter_sublist.trans List.filter_sublist

end CodeBase

namespace Blueprint

variable {p : Blueprint} {b : CodeBase}

/-- **Exactly the users without a marker are flagged.**  On a built code base,
the condition that only types with one of some markers use a type is checked to
the end for every type.  It says nothing but violations.  These are about the
other declared types that use the type in whatever way and from which no chain
of at most sixteen annotations on annotations leads to a marker: about each of
them once, in the order in which they are declared. -/
theorem accessedOnlyByAny_flags_intruders (h : p.build = .ok b)
    (markers : List String) (c : Element) :
    ∃ users : List Element,
      Yields ((Condition.accessedOnlyByAny markers).check b.model c) ()
        (users.map fun user => .violated (.element user.id)
          ("Class " ++ user.fullName ++ " is annotated neither by "
            ++ Condition.labels markers))
      ∧ (∀ user, user ∈ users ↔ b.Intrudes markers c user)
      ∧ users.Sublist b.classes ∧ (users.map (·.id)).Nodup
      ∧ b.classes.map (·.fullName) = p.classes.map (·.name) := by
  have hb := depicts_build h
  have hwords : ∀ name : String,
      "Class " ++ name ++ " " ++ ("is annotated neither by " ++ Condition.labels markers)
        = "Class " ++ name ++ " is annotated neither by " ++ Condition.labels markers := by
    intro name
    rw [← String.append_assoc]
    exact congrArg (· ++ Condition.labels markers) String.append_assoc
  have hids : ((b.intruders markers c).map (·.id)).Nodup := by
    refine List.Sublist.nodup ((b.intruders_sublist markers c).map (·.id)) ?_
    rw [hb.classes_eq, List.map_map]
    exact hb.nodup_ids
  refine ⟨b.intruders markers c, ?_, fun _ => CodeBase.mem_intruders,
    b.intruders_sublist markers c, hids, ?_⟩
  · simp only [← hwords]
    exact .after_lookup (hb.dependentClasses_eq c.id) (yields_emit _)
  · rw [hb.classes_eq, List.map_map]
    exact p.names_declarations

/-- A vault with a door of its own.  The guard is sealed by way of a badge, the
thief is not and uses the vault twice, and the clerk was there first. -/
def castle : Blueprint where
  classes :=
    [{ name := "a.Clerk", superclass := some "a.Vault" },
      { name := "a.Guard", annotations := [{ typeName := "a.Badge" }]
        members := [{ head := .field "post" "a.Vault[]" }] },
      { name := "a.Vault", annotations := [{ typeName := "a.Seal" }]
        members := [{ head := .method "close"
                      accesses := [{ owner := "a.Vault", target := .field "door" }] }] },
      { name := "a.Thief"
        members :=
          [{ head := .method "creep", parameters := ["a.Vault"]
             accesses := [{ owner := "a.Vault", target := .method "open" [] }] }] },
      { name := "a.Badge", flavor := .annotationType
        annotations := [{ typeName := "a.Seal" }] }]

/-- The clerk and the thief are flagged, in this order. -/
theorem castle_flags_intruders : ∃ b c, castle.build = .ok b
    ∧ b.element? 2 = some c ∧ ∃ users : List Element,
      Yields ((Condition.accessedOnlyByAny ["a.Seal", "a.Crown"]).check b.model c) ()
        (users.map fun user => .violated (.element user.id)
          ("Class " ++ user.fullName ++ " is annotated neither by "
            ++ Condition.labels ["a.Seal", "a.Crown"]))
      ∧ users.map (fun user => Subject.element user.id) = [.element 0, .element 3]
      ∧ ∀ user, user ∈ users ↔ b.Intrudes ["a.Seal", "a.Crown"] c user := by
  refine ⟨_, _, rfl, rfl, ?_⟩
  obtain ⟨users, hyields, hmem, -⟩ :=
    accessedOnlyByAny_flags_intruders (p := castle) rfl ["a.Seal", "a.Crown"] _
  refine ⟨users, hyields, ?_, hmem⟩
  have hsubjects := congrArg (fun result => result.2.map (·.subject)) (hyields [])
  rw [List.nil_append, List.map_map] at hsubjects
  exact hsubjects.symm.trans (by decide +kernel)

end Blueprint

end Conformance
