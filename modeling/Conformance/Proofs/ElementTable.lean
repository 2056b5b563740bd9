/-
Conformance/Proofs/ElementTable.lean

The table of elements, written out.

A built code base lists all declared types first, then type by type their
members, and then stubs.  Nothing in the first two parts depends on what is
referred to: the id of a declared element is its place among the declarations
(`typeElements`, `memberElements`), and a stub never gets in between, whatever
it stands for.  What rules select from, the declared types, their members and
the methods, is read off these two parts alone (`Depicts.filter_elements`).

The third part holds no more than it must.  A stub is made for one reference,
and the dependency that records the reference runs to it; what the next step
does cannot undo that (`Warranted.connect`).

Declarations that differ only in accesses, superclasses and interfaces are the
same once these are left out (`withoutReferences`), and leaving them out changes
nothing in the first two parts.
-/
import Mathlib.Data.List.Nodup
import Conformance.CodeBase.Model
import Conformance.Proofs.Linked

namespace Conformance

namespace CodeBase

variable {b : CodeBase} {cs : List ClassDecl} {c : ClassDecl} {i : Nat}

/-! ### Declared elements and their ids -/

/-- The declared types as elements: each has its place among them as its id. -/
def typeElements (cs : List ClassDecl) : List Element :=
  cs.mapIdx Element.ofClass

/-- The id of the first member of the type at place `i`.  All types come before,
and so do the members of the types before this one. -/
def firstMemberId (cs : List ClassDecl) (i : Nat) : ElementId :=
  cs.length + ((cs.take i).flatMap (·.allMembers)).length

/-- The members of the type at place `i` as elements, under consecutive ids. -/
def membersAt (cs : List ClassDecl) (i : Nat) (c : ClassDecl) : List Element :=
  c.allMembers.mapIdx fun k m => .ofMember (firstMemberId cs i + k) i c.name m

/-- The declared members as elements, type by type. -/
def memberElements (cs : List ClassDecl) : List Element :=
  (cs.mapIdx (membersAt cs)).flatten

/-- What declarations become under consecutive ids. -/
theorem map_placedFrom {α β : Type} (f : Placed α → β) (n : ElementId) (as : List α) :
    (placedFrom n as).map f = as.mapIdx fun k a => f ⟨n + k, a⟩ := by
  induction as generalizing n with
  | nil => rfl
  | cons a as ih =>
    rw [placedFrom, List.map_cons, ih, List.mapIdx_cons]
    simp only [Nat.add_zero, Nat.add_assoc, Nat.add_comm 1]

/-- Each type's members start where those of the types before it end. -/
theorem memberTable_placedFrom (n s : ElementId) (cs : List ClassDecl) :
    memberTable n (placedFrom s cs)
      = (cs.mapIdx fun i c =>
          memberBlock (n + ((cs.take i).flatMap (·.allMembers)).length)
            ⟨s + i, c⟩).flatten := by
  induction cs generalizing n s with
  | nil => rfl
  | cons c cs ih =>
    rw [placedFrom, memberTable, ih, List.mapIdx_cons, List.flatten_cons]
    simp only [List.take_succ_cons, List.flatMap_cons, List.length_append,
      Nat.add_assoc, Nat.add_comm 1]
    rfl

theorem declaredTable_eq (cs : List ClassDecl) :
    declaredTable cs = typeElements cs ++ memberElements cs := by
  have htypes : (placedFrom 0 cs).map (fun c => Element.ofClass c.id c.decl)
      = typeElements cs := by
    rw [map_placedFrom]
    simp only [Nat.zero_add]
    rfl
  have hmembers : memberTable cs.length (placedFrom 0 cs) = memberElements cs := by
    rw [memberTable_placedFrom]
    simp only [Nat.zero_add, memberBlock, map_placedFrom]
    rfl
  rw [declaredTable, htypes, hmembers]

theorem getElem?_typeElements (cs : List ClassDecl) (i : Nat) :
    (typeElements cs)[i]? = cs[i]?.map (.ofClass i) :=
  List.getElem?_mapIdx

theorem mem_typeElements {e : Element} :
    e ∈ typeElements cs ↔ ∃ i c, cs[i]? = some c ∧ e = .ofClass i c := by
  rw [List.mem_iff_getElem?]
  simp only [getElem?_typeElements, Option.map_eq_some_iff]
  constructor
  · rintro ⟨i, c, hc, rfl⟩
    exact ⟨i, c, hc, rfl⟩
  · rintro ⟨i, c, hc, rfl⟩
    exact ⟨i, c, hc, rfl⟩

theorem getElem?_blocks (cs : List ClassDecl) (i : Nat) :
    (cs.mapIdx (membersAt cs))[i]? = cs[i]?.map (membersAt cs i) :=
  List.getElem?_mapIdx

theorem mem_memberElements {e : Element} :
    e ∈ memberElements cs ↔ ∃ i c, cs[i]? = some c ∧ e ∈ membersAt cs i c := by
  rw [memberElements, List.mem_flatten]
  constructor
  · rintro ⟨block, hblock, he⟩
    obtain ⟨i, hi⟩ := List.mem_iff_getElem?.mp hblock
    rw [getElem?_blocks] at hi
    obtain ⟨c, hc, rfl⟩ := Option.map_eq_some_iff.mp hi
    exact ⟨i, c, hc, he⟩
  · rintro ⟨i, c, hc, he⟩
    refine ⟨membersAt cs i c, List.mem_iff_getElem?.mpr ⟨i, ?_⟩, he⟩
    rw [getElem?_blocks, hc, Option.map_some]

/-- A member belongs to the type it is listed with, and is declared. -/
theorem of_mem_membersAt {e : Element} (he : e ∈ membersAt cs i c) :
    (∃ kind, e.kind = .member kind) ∧ e.owner = some i ∧ e.isStub = false := by
  obtain ⟨k, hk, rfl⟩ := List.mem_mapIdx.mp he
  exact ⟨⟨_, rfl⟩, rfl, rfl⟩

theorem isStub_of_mem_declared {e : Element}
    (he : e ∈ typeElements cs ++ memberElements cs) : e.isStub = false := by
  rcases List.mem_append.mp he with he | he
  · obtain ⟨i, c, -, rfl⟩ := mem_typeElements.mp he
    rfl
  · obtain ⟨i, c, -, he⟩ := mem_memberElements.mp he
    exact (of_mem_membersAt he).2.2

/-! ### What is selected from the table -/

/-- Where stubs are not wanted, only the declared elements are looked at. -/
theorem Depicts.filter_elements (h : b.Depicts cs) {p : Element → Bool}
    (hp : ∀ e, e.isStub = true → p e = false) :
    b.elements.filter p = (typeElements cs ++ memberElements cs).filter p := by
  obtain ⟨stubs, hes, hstubs⟩ := h.elements
  have hnone : stubs.filter p = [] := by
    refine List.filter_eq_nil_iff.mpr fun e he => ?_
    simp [hp e (hstubs e he)]
  rw [hes, declaredTable_eq, List.filter_append, hnone, List.append_nil]

/-- The declared types are the first part of the table. -/
theorem Depicts.classes_eq_typeElements (h : b.Depicts cs) :
    b.classes = typeElements cs := by
  have htypes : (typeElements cs).filter Element.isDeclaredType = typeElements cs := by
    refine List.filter_eq_self.mpr fun e he => ?_
    obtain ⟨i, c, -, rfl⟩ := mem_typeElements.mp he
    rfl
  have hmembers : (memberElements cs).filter Element.isDeclaredType = [] := by
    refine List.filter_eq_nil_iff.mpr fun e he => ?_
    obtain ⟨i, c, -, he⟩ := mem_memberElements.mp he
    obtain ⟨⟨kind, hkind⟩, -⟩ := of_mem_membersAt he
    simp [Element.isDeclaredType, hkind]
  rw [h.sound.indexed.classes_eq, h.filter_elements fun e he => by
    simp [Element.isDeclaredType, he], List.filter_append, htypes, hmembers,
    List.append_nil]

/-- What holds of everything in one block, and of nothing in the others, selects
the block. -/
theorem filter_flatten_of_block {α : Type} {blocks : List (List α)} {p : α → Bool}
    {block : List α} (hi : blocks[i]? = some block) (hin : ∀ a ∈ block, p a = true)
    (hout : ∀ j other, j ≠ i → blocks[j]? = some other → ∀ a ∈ other, p a = false) :
    blocks.flatten.filter p = block := by
  induction blocks generalizing i with
  | nil => cases hi
  | cons first blocks ih =>
    rw [List.flatten_cons, List.filter_append]
    rcases i with - | i
    · obtain rfl : first = block := Option.some.inj hi
      have hrest : blocks.flatten.filter p = [] := by
        refine List.filter_eq_nil_iff.mpr fun a ha => ?_
        obtain ⟨other, hother, ha⟩ := List.mem_flatten.mp ha
        obtain ⟨j, hj⟩ := List.mem_iff_getElem?.mp hother
        rw [hout (j + 1) other (Nat.succ_ne_zero j) hj a ha]
        exact Bool.false_ne_true
      rw [List.filter_eq_self.mpr hin, hrest, List.append_nil]
    · have hfirst : first.filter p = [] := by
        refine List.filter_eq_nil_iff.mpr fun a ha => ?_
        rw [hout 0 first (Nat.succ_ne_zero i).symm rfl a ha]
        exact Bool.false_ne_true
      rw [hfirst, List.nil_append]
      refine ih hi fun j other hj hother => ?_
      exact hout (j + 1) other (fun heq => hj (Nat.succ.inj heq)) hother

theorem filter_isMemberOf_typeElements (cs : List ClassDecl) (i : ElementId) :
    (typeElements cs).filter (·.isMemberOf i) = [] := by
  refine List.filter_eq_nil_iff.mpr fun e he => ?_
  obtain ⟨j, c, -, rfl⟩ := mem_typeElements.mp he
  simp [Element.isMemberOf, Element.ofClass]

theorem Depicts.membersOf_eq_filter (h : b.Depicts cs) (i : ElementId) :
    b.membersOf i = (memberElements cs).filter (·.isMemberOf i) := by
  rw [h.sound.indexed.membersOf_eq, h.filter_elements fun e he => by
    simp [Element.isMemberOf, he], List.filter_append,
    filter_isMemberOf_typeElements, List.nil_append]

/-- The members of a declared type are its block of the second part. -/
theorem Depicts.membersOf_eq_membersAt (h : b.Depicts cs) (hc : cs[i]? = some c) :
    b.membersOf i = membersAt cs i c := by
  rw [h.membersOf_eq_filter, memberElements]
  refine filter_flatten_of_block (i := i) ?_ ?_ ?_
  · rw [getElem?_blocks, hc, Option.map_some]
  · intro e he
    obtain ⟨-, howner, hstub⟩ := of_mem_membersAt he
    simp [Element.isMemberOf, howner, hstub]
  · intro j other hj hother e he
    rw [getElem?_blocks] at hother
    obtain ⟨c', -, rfl⟩ := Option.map_eq_some_iff.mp hother
    obtain ⟨-, howner, -⟩ := of_mem_membersAt he
    simp [Element.isMemberOf, howner, hj]

/-- Nothing else has declared members. -/
theorem Depicts.membersOf_eq_nil (h : b.Depicts cs) (hi : cs.length ≤ i) :
    b.membersOf i = [] := by
  rw [h.membersOf_eq_filter]
  refine List.filter_eq_nil_iff.mpr fun e he => ?_
  obtain ⟨j, c, hj, he⟩ := mem_memberElements.mp he
  have hlt : j < cs.length := (List.getElem?_eq_some_iff.mp hj).1
  obtain ⟨-, howner, -⟩ := of_mem_membersAt he
  simp [Element.isMemberOf, howner, Nat.ne_of_lt (Nat.lt_of_lt_of_le hlt hi)]

/-- Gone through type by type, the members make up the second part. -/
theorem Depicts.flatMap_membersOf (h : b.Depicts cs) :
    (b.classes.flatMap fun e => b.membersOf e.id) = memberElements cs := by
  have hblocks : (typeElements cs).map (fun e => b.membersOf e.id)
      = cs.mapIdx (membersAt cs) := by
    apply List.ext_getElem?
    intro i
    rw [List.getElem?_map, getElem?_typeElements, getElem?_blocks]
    rcases hc : cs[i]? with - | c
    · rfl
    · exact congrArg some (h.membersOf_eq_membersAt hc)
  rw [h.classes_eq_typeElements, List.flatMap_def, hblocks, memberElements]

/-- The declared methods are those among the declared members. -/
theorem Depicts.methods_eq_filter (h : b.Depicts cs) :
    b.model.methods = (memberElements cs).filter (·.kind == .member .method) := by
  show (b.classes.flatMap fun e => b.membersOf e.id).filter _ = _
  rw [h.flatMap_membersOf]
  apply List.filter_congr
  intro e he
  rw [isStub_of_mem_declared (List.mem_append_right _ he), Bool.not_false, Bool.and_true]

/-- Where each entry knows its place, no entry is repeated. -/
theorem nodup_of_places {α : Type} {as : List α} {place : α → Nat}
    (h : ∀ i a, as[i]? = some a → place a = i) : as.Nodup := by
  refine List.nodup_iff_getElem?_ne_getElem?.mpr fun i j hij hj heq => ?_
  obtain ⟨a, ha⟩ : ∃ a, as[j]? = some a := ⟨_, List.getElem?_eq_getElem hj⟩
  exact Nat.ne_of_lt hij ((h i a (heq.trans ha)).symm.trans (h j a ha))

/-- Ids tell all elements apart. -/
theorem Indexed.nodup_elements (h : b.Indexed) : b.elements.Nodup :=
  nodup_of_places fun i _ he => h.element_id ((element?_eq b i).trans he)

/-- Ids tell all dependencies apart. -/
theorem Indexed.nodup_dependencies (h : b.Indexed) : b.dependencies.Nodup :=
  nodup_of_places fun i _ hd => h.edge_id ((dependency?_eq b i).trans hd)

theorem Depicts.nodup_declared (h : b.Depicts cs) :
    (typeElements cs ++ memberElements cs).Nodup := by
  obtain ⟨stubs, hes, -⟩ := h.elements
  have hall := h.sound.indexed.nodup_elements
  rw [hes, declaredTable_eq] at hall
  exact hall.of_append_left

/-! ### Stubs are there for a reason -/

/-- Every stub is what some dependency runs to, or the type of it. -/
def Warranted (b : CodeBase) : Prop :=
  ∀ e ∈ b.elements, e.isStub = true →
    ∃ d ∈ b.dependencies, d.target = e.id ∨ d.targetClass = e.id

theorem dependencies_ensureClass (b : CodeBase) (name : String) :
    (b.ensureClass name).1.dependencies = b.dependencies := by
  unfold ensureClass
  split <;> rfl

theorem dependencies_ensureMember (b : CodeBase) (c : ElementId) (a : AccessDecl) :
    (b.ensureMember c a).1.dependencies = b.dependencies := by
  unfold ensureMember
  split <;> rfl

/-- A type that is new is the one that was asked for. -/
theorem mem_ensureClass {name : String} {e : Element}
    (he : e ∈ (b.ensureClass name).1.elements) :
    e ∈ b.elements ∨ e.id = (b.ensureClass name).2 := by
  unfold ensureClass at he ⊢
  split
  · rename_i hid
    rw [hid] at he
    exact Or.inl he
  · rename_i hid
    rw [hid, elements_addType, List.mem_append, List.mem_singleton] at he
    rcases he with he | rfl
    · exact Or.inl he
    · exact Or.inr rfl

/-- A member that is new is the one that was asked for. -/
theorem mem_ensureMember {c : ElementId} {a : AccessDecl} {e : Element}
    (he : e ∈ (b.ensureMember c a).1.elements) :
    e ∈ b.elements ∨ e.id = (b.ensureMember c a).2 := by
  unfold ensureMember at he ⊢
  split
  · rename_i hm
    rw [hm] at he
    exact Or.inl he
  · rename_i hm
    rw [hm, elements_addMember, List.mem_append, List.mem_singleton] at he
    rcases he with he | rfl
    · exact Or.inl he
    · exact Or.inr rfl

/-- A dependency to whatever is new makes up for it. -/
theorem Warranted.addEdge {b' : CodeBase} (h : b.Warranted)
    (hdeps : b'.dependencies = b.dependencies) {kind : DependencyKind}
    {o oc t tc : ElementId} {line : Option Nat}
    (hnew : ∀ e ∈ b'.elements, e ∈ b.elements ∨ e.id = t ∨ e.id = tc) :
    (b'.addEdge kind o oc t tc line).Warranted := by
  intro e he hs
  rw [elements_addEdge] at he
  rw [dependencies_addEdge, hdeps]
  rcases hnew e he with hold | hid
  · obtain ⟨d, hd, hto⟩ := h e hold hs
    exact ⟨d, List.mem_append_left _ hd, hto⟩
  · refine ⟨_, List.mem_append_right _ (List.mem_singleton.mpr rfl), ?_⟩
    exact hid.imp Eq.symm Eq.symm

/-- Recording one reference keeps stubs warranted. -/
theorem Warranted.connect (h : b.Warranted) (r : Reference) :
    (b.connect r).Warranted := by
  obtain ⟨o, oc, ⟨kind, name⟩ | a⟩ := r
  · rw [connect_type]
    split
    · exact h
    · refine h.addEdge (dependencies_ensureClass b _) fun e he => ?_
      exact (mem_ensureClass he).imp_right Or.inr
  · -- the type may be new, and then so is its member
    refine h.addEdge ?_ fun e he => ?_
    · exact (dependencies_ensureMember _ _ a).trans (dependencies_ensureClass b a.owner)
    · rcases mem_ensureMember he with he | hid
      · exact (mem_ensureClass he).imp_right Or.inr
      · exact Or.inr (Or.inl hid)

theorem Warranted.foldl_connect (h : b.Warranted) (rs : List Reference) :
    (rs.foldl CodeBase.connect b).Warranted := by
  induction rs generalizing b with
  | nil => exact h
  | cons r rs ih => exact ih (h.connect r)

theorem warranted_declaredBase (cs : List ClassDecl) : (declaredBase cs).Warranted := by
  intro e he hs
  rw [elements_declaredBase, declaredTable_eq] at he
  rw [isStub_of_mem_declared he] at hs
  cases hs

end CodeBase

/-! ### Declarations without references -/

/-- A member without its accesses. -/
def MemberDecl.outline (m : MemberDecl) : MemberDecl :=
  { m with accesses := [] }

/-- A type without its superclass, its interfaces and the accesses of its
members. -/
def ClassDecl.withoutReferences (c : ClassDecl) : ClassDecl :=
  { c with superclass := none, interfaces := [], members := c.members.map (·.outline) }

/-- Declarations without superclasses, interfaces and accesses. -/
def Blueprint.withoutReferences (p : Blueprint) : Blueprint where
  classes := p.classes.map (·.withoutReferences)
  lateMembers := p.lateMembers.map fun om => (om.1, om.2.outline)

namespace ClassDecl

theorem declaresConstructor_withoutReferences (c : ClassDecl) :
    c.withoutReferences.declaresConstructor = c.declaresConstructor := by
  show (c.members.map (·.outline)).any _ = _
  rw [List.any_map]
  rfl

theorem allMembers_withoutReferences (c : ClassDecl) :
    c.withoutReferences.allMembers = c.allMembers.map (·.outline) := by
  have himplicit : c.withoutReferences.implicitConstructor?
      = c.implicitConstructor?.map (·.outline) := by
    unfold implicitConstructor?
    rw [declaresConstructor_withoutReferences]
    show (if c.flavor = .plain && !c.declaresConstructor then _ else _) = _
    split <;> rfl
  rw [allMembers, allMembers, himplicit, List.map_append]
  rcases c.implicitConstructor? with - | m <;> rfl

theorem membersValid_withoutReferences {c : ClassDecl} :
    c.withoutReferences.MembersValid ↔ c.MembersValid := by
  have hsignatures : (c.withoutReferences.members.map (·.signature c.name))
      = c.members.map (·.signature c.name) := List.map_map
  constructor
  · rintro ⟨hnamed, hnodup⟩
    refine ⟨?_, hsignatures ▸ hnodup⟩
    intro m hm
    exact hnamed m.outline (List.mem_map_of_mem hm)
  · rintro ⟨hnamed, hnodup⟩
    refine ⟨?_, hsignatures.symm ▸ hnodup⟩
    intro m hm
    obtain ⟨m', hm', rfl⟩ := List.mem_map.mp hm
    exact hnamed m' hm'

end ClassDecl

namespace Blueprint

open CodeBase

variable {p : Blueprint}

/-- Members given apart may be stripped before or after they join their type. -/
theorem declarations_withoutReferences (p : Blueprint) :
    p.withoutReferences.declarations = p.declarations.map (·.withoutReferences) := by
  have hlate : ∀ name, lateMembersOf p.withoutReferences.lateMembers name
      = (lateMembersOf p.lateMembers name).map (·.outline) := by
    intro name
    show ((p.lateMembers.map _).filter _).map _ = ((p.lateMembers.filter _).map _).map _
    rw [List.filter_map, List.map_map, List.map_map]
    rfl
  show (p.classes.map _).map _ = (p.classes.map _).map _
  rw [List.map_map, List.map_map]
  apply List.map_congr_left
  intro c _
  have hmembers : c.withoutReferences.members
      ++ lateMembersOf p.withoutReferences.lateMembers c.name
      = (c.members ++ lateMembersOf p.lateMembers c.name).map (·.outline) := by
    rw [hlate, List.map_append]
    rfl
  exact congrArg (fun ms => { c.withoutReferences with members := ms }) hmembers

theorem valid_withoutReferences : p.withoutReferences.Valid ↔ p.Valid := by
  have hnames : p.withoutReferences.classes.map (·.name) = p.classes.map (·.name) :=
    List.map_map
  have hmembers : (∀ c ∈ p.withoutReferences.declarations, c.MembersValid)
      ↔ ∀ c ∈ p.declarations, c.MembersValid := by
    rw [declarations_withoutReferences, List.forall_mem_map]
    simp only [ClassDecl.membersValid_withoutReferences]
  constructor
  · intro h
    refine ⟨?_, ?_, hnames ▸ h.nodup, hmembers.mp h.members⟩
    · intro om hom
      rw [← hnames]
      exact h.owners (om.1, om.2.outline) (List.mem_map_of_mem hom)
    · intro c hc
      exact h.named c.withoutReferences (List.mem_map_of_mem hc)
  · intro h
    refine ⟨?_, ?_, hnames.symm ▸ h.nodup, hmembers.mpr h.members⟩
    · intro om hom
      obtain ⟨om', hom', rfl⟩ := List.mem_map.mp hom
      rw [hnames]
      exact h.owners om' hom'
    · intro c hc
      obtain ⟨c', hc', rfl⟩ := List.mem_map.mp hc
      exact h.named c' hc'

end Blueprint

namespace CodeBase

theorem mapIdx_map {α β γ : Type} (f : α → β) (g : Nat → β → γ) (as : List α) :
    (as.map f).mapIdx g = as.mapIdx fun i a => g i (f a) := by
  apply List.ext_getElem?
  intro i
  rw [List.getElem?_mapIdx, List.getElem?_map, List.getElem?_mapIdx, Option.map_map]
  rfl

theorem typeElements_withoutReferences (cs : List ClassDecl) :
    typeElements (cs.map (·.withoutReferences)) = typeElements cs :=
  mapIdx_map _ _ cs

theorem firstMemberId_withoutReferences (cs : List ClassDecl) (i : Nat) :
    firstMemberId (cs.map (·.withoutReferences)) i = firstMemberId cs i := by
  simp only [firstMemberId, List.length_map, ← List.map_take, List.flatMap_map,
    ClassDecl.allMembers_withoutReferences, List.length_flatMap]

theorem memberElements_withoutReferences (cs : List ClassDecl) :
    memberElements (cs.map (·.withoutReferences)) = memberElements cs := by
  have hblock : ∀ i c, membersAt (cs.map (·.withoutReferences)) i c.withoutReferences
      = membersAt cs i c := by
    intro i c
    rw [membersAt, ClassDecl.allMembers_withoutReferences, mapIdx_map,
      firstMemberId_withoutReferences]
    rfl
  rw [memberElements, mapIdx_map]
  simp only [hblock]
  rfl

/-- Code bases with the same declared elements answer alike. -/
theorem Depicts.answers_congr {b b' : CodeBase} {cs cs' : List ClassDecl}
    (h : b.Depicts cs) (h' : b'.Depicts cs')
    (htypes : typeElements cs' = typeElements cs)
    (hmembers : memberElements cs' = memberElements cs) :
    b'.elements.filter (fun e => !e.isStub) = b.elements.filter (fun e => !e.isStub)
      ∧ b'.model.classes = b.model.classes ∧ b'.model.methods = b.model.methods
      ∧ ∀ i, b'.model.membersOf i = b.model.membersOf i
        ∧ b'.model.zeroArgConstructor? i = b.model.zeroArgConstructor? i := by
  have hmembersOf : ∀ i, b'.membersOf i = b.membersOf i := by
    intro i
    rw [h.membersOf_eq_filter, h'.membersOf_eq_filter, hmembers]
  refine ⟨?_, ?_, ?_, fun i => ⟨hmembersOf i, ?_⟩⟩
  · rw [h.filter_elements fun e he => by simp [he],
      h'.filter_elements fun e he => by simp [he], htypes, hmembers]
  · show b'.classes = b.classes
    rw [h.classes_eq_typeElements, h'.classes_eq_typeElements, htypes]
  · rw [h.methods_eq_filter, h'.methods_eq_filter, hmembers]
  · show (b'.membersOf i).find? _ = (b.membersOf i).find? _
    rw [hmembersOf]

/-! ### Built code bases -/

/-- What a code base built from declarations lists, and in which order. -/
structure Tabulates (b : CodeBase) (cs : List ClassDecl) : Prop where
  /-- An element's id is its place in the table. -/
  id_eq : ∀ (i : Nat) (e : Element), b.elements[i]? = some e → e.id = i
  /-- The types come first, then their members, then stubs, each of which is what
  a dependency runs to or the type of it. -/
  elements : ∃ stubs, b.elements = typeElements cs ++ memberElements cs ++ stubs
    ∧ ∀ e ∈ stubs, e.isStub = true
      ∧ ∃ d ∈ b.dependencies, d.target = e.id ∨ d.targetClass = e.id
  /-- What is declared is no stub. -/
  declared : ∀ e ∈ typeElements cs ++ memberElements cs, e.isStub = false
  /-- What is declared is there once. -/
  nodup : (typeElements cs ++ memberElements cs).Nodup
  classes : b.model.classes = typeElements cs
  membersOf : ∀ i c, cs[i]? = some c → b.model.membersOf i = membersAt cs i c
  /-- Nothing but a declared type has members. -/
  membersOf_nil : ∀ i, cs.length ≤ i → b.model.membersOf i = []
  methods : b.model.methods
    = (memberElements cs).filter fun e => e.kind == .member .method

theorem Depicts.tabulates {b : CodeBase} {cs : List ClassDecl} (h : b.Depicts cs)
    (hwarranted : b.Warranted) : b.Tabulates cs where
  id_eq i e he := h.sound.indexed.element_id ((element?_eq b i).trans he)
  elements := by
    obtain ⟨stubs, hes, hstubs⟩ := h.elements
    rw [declaredTable_eq] at hes
    refine ⟨stubs, hes, fun e he => ⟨hstubs e he, ?_⟩⟩
    have hmem : e ∈ b.elements := by
      rw [hes]
      exact List.mem_append_right _ he
    exact hwarranted e hmem (hstubs e he)
  declared _ he := isStub_of_mem_declared he
  nodup := h.nodup_declared
  classes := h.classes_eq_typeElements
  membersOf _ _ hc := h.membersOf_eq_membersAt hc
  membersOf_nil _ hi := h.membersOf_eq_nil hi
  methods := h.methods_eq_filter

end CodeBase

/-- The implicit constructor, said in words of the declaration. -/
theorem ClassDecl.allMembers_eq (c : ClassDecl) :
    c.allMembers = c.members ++
      if c.flavor = .plain ∧ ∀ m ∈ c.members, m.kind ≠ .constructor then
        [{ head := .constructor, visibility := c.visibility }]
      else [] := by
  have hnone : (!c.declaresConstructor) = true
      ↔ ∀ m ∈ c.members, m.kind ≠ .constructor := by
    simp [declaresConstructor]
  unfold allMembers implicitConstructor?
  simp only [Bool.and_eq_true, decide_eq_true_eq, hnone]
  split <;> rfl

namespace Blueprint

open CodeBase

theorem warranted_build {p : Blueprint} {b : CodeBase} (h : p.build = .ok b) :
    b.Warranted := by
  obtain ⟨-, rfl⟩ := build_eq_ok_iff.mp h
  exact (warranted_declaredBase _).foldl_connect _

/-- What differs in accesses and supertypes alone is built too, and has the same
declared elements. -/
theorem exists_build_alike {p p' : Blueprint} {b : CodeBase} (h : p.build = .ok b)
    (hsame : p'.withoutReferences = p.withoutReferences) :
    ∃ b', p'.build = .ok b'
      ∧ b'.elements.filter (fun e => !e.isStub) = b.elements.filter (fun e => !e.isStub)
      ∧ b'.model.classes = b.model.classes ∧ b'.model.methods = b.model.methods
      ∧ ∀ i, b'.model.membersOf i = b.model.membersOf i
        ∧ b'.model.zeroArgConstructor? i = b.model.zeroArgConstructor? i := by
  have hvalid : p'.Valid := by
    rw [← valid_withoutReferences, hsame, valid_withoutReferences]
    exact (build_eq_ok_iff.mp h).1
  obtain ⟨b', hb'⟩ : ∃ b', p'.build = .ok b' :=
    ⟨_, build_eq_ok_iff.mpr ⟨hvalid, rfl⟩⟩
  have hdecls : p'.declarations.map (·.withoutReferences)
      = p.declarations.map (·.withoutReferences) := by
    rw [← declarations_withoutReferences, hsame, declarations_withoutReferences]
  have htypes : typeElements p'.declarations = typeElements p.declarations := by
    rw [← typeElements_withoutReferences, hdecls, typeElements_withoutReferences]
  have hmembers : memberElements p'.declarations = memberElements p.declarations := by
    rw [← memberElements_withoutReferences, hdecls, memberElements_withoutReferences]
  exact ⟨b', hb', (depicts_build h).answers_congr (depicts_build hb') htypes hmembers⟩

/-- **The table holds what is declared, and then the stubs that are needed.**
The types come first, in order.  Then come, type by type, the members written
with the type, those given apart, and a constructor without parameters that is
as visible as the type, if the type is a class that declares none.  All that
follows are stubs, and some dependency runs to each of them or to a member of
it.  What rules may select from is exactly what is declared, in that order.

So two lots of declarations that are the same but for accesses, superclasses
and interfaces build code bases with the same declared elements, ids included,
and rules select from the same types, methods, members and constructors. -/
theorem tabulates_build {p : Blueprint} {b : CodeBase} (h : p.build = .ok b) :
    b.Tabulates p.declarations
    ∧ (∀ c ∈ p.declarations, c.allMembers = c.members ++
        if c.flavor = .plain ∧ ∀ m ∈ c.members, m.kind ≠ .constructor then
          [{ head := .constructor, visibility := c.visibility }]
        else [])
    ∧ ∀ p' : Blueprint, p'.withoutReferences = p.withoutReferences →
      ∃ b', p'.build = .ok b'
        ∧ b'.elements.filter (fun e => !e.isStub)
          = b.elements.filter (fun e => !e.isStub)
        ∧ b'.model.classes = b.model.classes
        ∧ b'.model.methods = b.model.methods
        ∧ ∀ i, b'.model.membersOf i = b.model.membersOf i
          ∧ b'.model.zeroArgConstructor? i = b.model.zeroArgConstructor? i := by
  refine ⟨(depicts_build h).tabulates (warranted_build h), fun c _ => c.allMembers_eq, ?_⟩
  exact fun _ hsame => exists_build_alike h hsame

/-- The shop with other references: the clerk is a machine and does nothing, and
the item's late method calls a member of the item that nobody declares. -/
def idleShop : Blueprint where
  classes :=
    [{ name := "a.Clerk", annotations := [{ typeName := "a.Mark" }]
       superclass := some "a.Machine"
       members :=
        [{ head := .method "sell", parameters := ["a.Item[]", "int"] }] },
      { name := "a.Item" }]
  lateMembers :=
    [("a.Item",
      { head := .method "price", returns := some "a.Money"
        accesses := [{ owner := "a.Item", target := .method "weigh" [] }] }),
      ("a.Item", { head := .field "parts" "a.Item[][]" })]

/-- Both shops have seven declared elements, two of them constructors that nobody
wrote down; what the stubs are has changed. -/
theorem shop_tabulates : ∃ b b', shop.build = .ok b ∧ idleShop.build = .ok b'
    ∧ idleShop.withoutReferences = shop.withoutReferences
    ∧ b.Tabulates shop.declarations
    ∧ (b.elements.filter fun e => !e.isStub).map (·.fullName)
      = ["a.Clerk", "a.Item", "a.Clerk.sell(a.Item[], int)", "a.Clerk.<init>()",
        "a.Item.price()", "a.Item.parts", "a.Item.<init>()"]
    ∧ b'.elements.filter (fun e => !e.isStub) = b.elements.filter (fun e => !e.isStub)
    ∧ b'.elements ≠ b.elements := by
  have hsame : idleShop.withoutReferences = shop.withoutReferences := by rfl
  obtain ⟨htable, -, hothers⟩ := tabulates_build (p := shop) rfl
  obtain ⟨b', hb', hdeclared, -⟩ := hothers idleShop hsame
  cases hb'
  exact ⟨_, _, rfl, rfl, hsame, htable, by decide, hdeclared, by decide⟩

end Blueprint

end Conformance
