/-
Conformance/Proofs/Uses.lean

Uses: what declarations say about who uses what, before any id is given.

A use is made by a type or by one of its members, and is of a type or of one of
its members; all of them go by name.  `ClassDecl.uses` reads the uses off a
declaration in the order in which a code base lists its dependencies: the head
of the type first, then member by member.  Uses are to dependencies what
declarations are to elements, and theorems about a code base are best stated in
their terms.

A type mentioned by name counts without its array marks, and primitive types
count as nothing; the owner of an accessed member counts as it is written.
-/
import Conformance.Declaration

namespace Conformance

/-! ### Array marks -/

namespace Name

/-- The marks of an array of some depth. -/
def arrayMarks (depth : Nat) : List Char :=
  (List.replicate depth ['[', ']']).flatten

theorem arrayMarks_succ (depth : Nat) :
    arrayMarks (depth + 1) = arrayMarks depth ++ ['[', ']'] := by
  rw [arrayMarks, List.replicate_succ', List.flatten_append]
  rfl

theorem reverse_arrayMarks_succ (depth : Nat) :
    (arrayMarks (depth + 1)).reverse = ']' :: '[' :: (arrayMarks depth).reverse := by
  rw [arrayMarks_succ, List.reverse_append]
  rfl

/-- Read backwards, a name is array marks and then what is left of it, which
does not end in a mark. -/
theorem dropArrayMarks_spec (cs : List Char) :
    (∃ depth, cs = (arrayMarks depth).reverse ++ dropArrayMarks cs)
      ∧ ∀ rest, dropArrayMarks cs ≠ ']' :: '[' :: rest := by
  fun_induction dropArrayMarks cs with
  | case1 cs ih =>
    obtain ⟨⟨depth, hdepth⟩, hrest⟩ := ih
    refine ⟨⟨depth + 1, ?_⟩, hrest⟩
    rw [reverse_arrayMarks_succ, List.cons_append, List.cons_append, ← hdepth]
  | case2 cs hcs =>
    exact ⟨⟨0, rfl⟩, fun rest heq => hcs rest heq⟩

/-- The element type of an array is the array's name without the marks at its
end, all of them. -/
theorem elementType_spec (name : String) :
    (∃ depth, name.toList = (elementType name).toList ++ arrayMarks depth)
      ∧ ¬ ['[', ']'] <:+ (elementType name).toList := by
  obtain ⟨⟨depth, hdepth⟩, hrest⟩ := dropArrayMarks_spec name.toList.reverse
  rw [elementType, String.toList_ofList]
  constructor
  · refine ⟨depth, ?_⟩
    have h := congrArg List.reverse hdepth
    rwa [List.reverse_reverse, List.reverse_append, List.reverse_reverse] at h
  · rintro ⟨front, hfront⟩
    refine hrest front.reverse ?_
    have h := congrArg List.reverse hfront
    rw [List.reverse_append, List.reverse_reverse] at h
    exact h.symm

end Name

/-! ### Uses -/

/-- One use in a declaration. -/
structure Use where
  /-- The type in which the use is made. -/
  owner : ClassDecl
  /-- The member that makes the use; the type itself if not given. -/
  member : Option MemberDecl := none
  kind : DependencyKind
  /-- The type that is used, or whose member is. -/
  targetClass : String
  /-- The member that is used; the type itself if not given. -/
  target : Option MemberRef := none
  line : Option Nat := none
  deriving DecidableEq, Repr

/-- The use of a type by its name, if the name stands for a class. -/
def typeUses (c : ClassDecl) (m : Option MemberDecl) (kind : DependencyKind)
    (name : String) : List Use :=
  if Name.elementType name ∈ Name.primitives then []
  else [{ owner := c, member := m, kind, targetClass := Name.elementType name }]

/-- The use of a member by an access. -/
def accessUse (c : ClassDecl) (m : Option MemberDecl) (a : AccessDecl) :
    Use where
  owner := c
  member := m
  kind := .access a.target.kind
  targetClass := a.owner
  target := some a.target
  line := a.line

/-- The uses that a member of type `c` makes: annotations, the type of a field,
parameter types, the return type of a method, and the accesses of methods and
constructors. -/
def MemberDecl.uses (c : ClassDecl) (m : MemberDecl) : List Use :=
  m.annotations.flatMap (fun a => typeUses c (some m) .annotated a.typeName)
    ++ (match m.head with
      | .field _ type => typeUses c (some m) .fieldType type
      | _ => [])
    ++ m.parameters.flatMap (typeUses c (some m) .parameterType)
    ++ (match m.head with
      | .method _ =>
        typeUses c (some m) .returnType (m.returns.getD "void")
      | _ => [])
    ++ (match m.head with
      | .field _ _ => []
      | _ => m.accesses.map (accessUse c (some m)))

/-- The uses that a type makes: annotations, the superclass and interfaces, and
then those of its members. -/
def ClassDecl.uses (c : ClassDecl) : List Use :=
  c.annotations.flatMap (fun a => typeUses c none .annotated a.typeName)
    ++ c.superclass.toList.flatMap (typeUses c none .extending)
    ++ c.interfaces.flatMap (typeUses c none .implementing)
    ++ c.members.flatMap (·.uses c)

/-! ### Uses and mentions -/

/-- The use that a mention stands for, with who makes it. -/
def Mention.uses (c : ClassDecl) (m : Option MemberDecl) : Mention → List Use
  | .type kind name => typeUses c m kind name
  | .member a => [accessUse c m a]

theorem MemberDecl.flatMap_mentions (c : ClassDecl) (m : MemberDecl) :
    m.mentions.flatMap (·.uses c (some m)) = m.uses c := by
  have haccess : m.accesses.flatMap (fun a => [accessUse c (some m) a])
      = m.accesses.map (accessUse c (some m)) := List.map_eq_flatMap.symm
  rcases hm : m.head with _ | _ | _ <;>
    simp [hm, MemberDecl.mentions, MemberDecl.uses, Mention.uses, haccess,
      MemberDecl.fieldType, MemberDecl.mentionedReturnType,
      MemberDecl.mentionedAccesses, MemberDecl.kind, MemberDecl.returnType,
      MemberKind.isCodeUnit, List.flatMap_append, List.flatMap_map]

theorem ClassDecl.flatMap_mentions (c : ClassDecl) :
    c.mentions.flatMap (·.uses c none) ++ c.members.flatMap (·.uses c)
      = c.uses := by
  simp [ClassDecl.mentions, ClassDecl.uses, Mention.uses, List.flatMap_append,
    List.flatMap_map]

/-- Every use comes from something that the head of the type mentions, or one of
its members. -/
theorem ClassDecl.mem_uses {c : ClassDecl} {u : Use} :
    u ∈ c.uses ↔ (∃ mention ∈ c.mentions, u ∈ mention.uses c none)
      ∨ ∃ m ∈ c.members, ∃ mention ∈ m.mentions, u ∈ mention.uses c (some m) := by
  simp only [← ClassDecl.flatMap_mentions, ← MemberDecl.flatMap_mentions,
    List.mem_append, List.mem_flatMap]

/-! ### What every use is like -/

/-- A use is made in its type or by one of the type's members, and it is of a
member exactly if it is an access, which only code makes. -/
structure Use.Proper (c : ClassDecl) (u : Use) : Prop where
  owner_eq : u.owner = c
  member_mem : ∀ m, u.member = some m → m ∈ c.members
  of_type : u.target = none → u.kind.isAccess = false
  of_member : ∀ r, u.target = some r → u.kind = .access r.kind
    ∧ ∃ m, u.member = some m ∧ m.kind.isCodeUnit = true

theorem proper_typeUses {c : ClassDecl} {m : Option MemberDecl}
    {kind : DependencyKind} {name : String} {u : Use}
    (hm : ∀ m', m = some m' → m' ∈ c.members) (hkind : kind.isAccess = false)
    (hu : u ∈ typeUses c m kind name) : u.Proper c := by
  unfold typeUses at hu
  split at hu
  · cases hu
  · obtain rfl := List.mem_singleton.mp hu
    exact ⟨rfl, hm, fun _ => hkind, by rintro r ⟨⟩⟩

theorem proper_memberUses {c : ClassDecl} {m : MemberDecl} {u : Use}
    (hm : m ∈ c.members) (hu : u ∈ m.uses c) : u.Proper c := by
  have hmem : ∀ m', some m = some m' → m' ∈ c.members := by
    rintro m' ⟨⟩
    exact hm
  simp only [MemberDecl.uses, List.mem_append, List.mem_flatMap] at hu
  rcases hu with (((⟨a, -, hu⟩ | hu) | ⟨t, -, hu⟩) | hu) | hu
  · exact proper_typeUses hmem rfl hu
  · split at hu
    · exact proper_typeUses hmem rfl hu
    · cases hu
  · exact proper_typeUses hmem rfl hu
  · split at hu
    · exact proper_typeUses hmem rfl hu
    · cases hu
  · split at hu
    · cases hu
    · rename_i hhead
      obtain ⟨a, -, rfl⟩ := List.mem_map.mp hu
      refine ⟨rfl, hmem, by rintro ⟨⟩, ?_⟩
      rintro r ⟨⟩
      refine ⟨rfl, m, rfl, ?_⟩
      -- a field's accesses are not listed
      rcases h : m.head with _ | _ | ⟨name, type⟩
      · simp [MemberDecl.kind, h, MemberKind.isCodeUnit]
      · simp [MemberDecl.kind, h, MemberKind.isCodeUnit]
      · exact absurd h (hhead name type)

theorem ClassDecl.proper_uses {c : ClassDecl} {u : Use} (hu : u ∈ c.uses) :
    u.Proper c := by
  have hnone : ∀ m', (none : Option MemberDecl) = some m' → m' ∈ c.members := by
    rintro m' ⟨⟩
  simp only [ClassDecl.uses, List.mem_append, List.mem_flatMap] at hu
  rcases hu with ((⟨a, -, hu⟩ | ⟨t, -, hu⟩) | ⟨t, -, hu⟩) | ⟨m, hm, hu⟩
  · exact proper_typeUses hnone rfl hu
  · exact proper_typeUses hnone rfl hu
  · exact proper_typeUses hnone rfl hu
  · exact proper_memberUses hm hu

end Conformance
