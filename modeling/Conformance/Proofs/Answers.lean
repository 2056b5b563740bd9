/-
Conformance/Proofs/Answers.lean

What a code base answers, in terms of the declarations it shows.

Rules ask a code base for types, members and dependencies, and are given
elements and ids.  If the code base depicts declarations, all of it can be said
by name: the types are the declared ones (`classes_eq`), the members of a type
are those of its declaration (`membersOf_eq`), the dependencies from and to a
type record the uses that are made from and of it (`dependenciesFrom_records`
and the two after it), and the ends of a dependency are what the use says
(`Records.resolve_origin` and the three after it).

Uses are recorded type by type, in the order of the declarations.  So what
starts in a declared type stands together (`Depicts.flatMap_outgoing`).

A type is known by its name, so the id of a declared type is the one that the
name stands for (`idOf`).
-/
import Conformance.Proofs.ElementTable
import Conformance.Proofs.MetaAnnotations

namespace Conformance

/-! ### Uses in words -/

namespace Use

/-- What sort of element makes a use. -/
def originKind (u : Use) : ElementKind :=
  match u.member with
  | none => .type
  | some m => .member m.kind

/-- The full name of the element that makes a use. -/
def originName (u : Use) : String :=
  match u.member with
  | none => u.owner.name
  | some m => m.fullName u.owner.name

/-- The full name of what is used. -/
def targetName (u : Use) : String :=
  match u.target with
  | none => u.targetClass
  | some r => r.fullName u.targetClass

/-- A use in words. -/
def describe (u : Use) : String :=
  u.originKind.label ++ " <" ++ u.originName ++ ">" ++ " " ++ u.kind.phrase
    ++ " <" ++ u.targetName ++ ">"
    ++ match u.owner.sourceFile, u.line with
      | some file, some line => " in (" ++ file ++ ":" ++ toString line ++ ")"
      | _, _ => ""

end Use

/-- The uses of a type with a name, and of its members. -/
def usesOf (cs : List ClassDecl) (name : String) : List Use :=
  (cs.flatMap (·.uses)).filter fun u => u.targetClass == name

/-! ### Annotations on annotations -/

/-- The model that knows declared types by their names, and nothing else. -/
def annotationModel (cs : List ClassDecl) : CodeModel where
  element? _ := none
  classNamed? name := (cs.find? fun c => c.name == name).map (.ofClass 0)
  classes := []
  membersOf _ := []
  dependencies := []

theorem markersOfType_annotationModel (cs : List ClassDecl) (name : String) :
    (annotationModel cs).markersOfType name
      = match cs.find? (fun c => c.name == name) with
        | some c => c.annotations.map (·.typeName)
        | none => [] := by
  simp only [CodeModel.markersOfType, annotationModel]
  cases cs.find? (fun c => c.name == name) <;> rfl

theorem markersOfType_annotationModel_of_mem {cs : List ClassDecl}
    (hnd : (cs.map (·.name)).Nodup) {c : ClassDecl} (hc : c ∈ cs) :
    (annotationModel cs).markersOfType c.name
      = c.annotations.map (·.typeName) := by
  have hfind : cs.find? (fun c' => c'.name == c.name) = some c := by
    induction cs with
    | nil => cases hc
    | cons c' cs ih =>
      rw [List.map_cons, List.nodup_cons] at hnd
      rcases List.mem_cons.mp hc with rfl | hc
      · exact List.find?_cons_of_pos (beq_self_eq_true _)
      · have hne : c'.name ≠ c.name :=
          fun heq => hnd.1 (heq ▸ List.mem_map_of_mem hc)
        rw [List.find?_cons, beq_eq_false_iff_ne.mpr hne]
        exact ih hnd.2 hc
  rw [markersOfType_annotationModel, hfind]

theorem markersOfType_annotationModel_of_forall_ne {cs : List ClassDecl}
    {name : String} (hno : ∀ c ∈ cs, c.name ≠ name) :
    (annotationModel cs).markersOfType name = [] := by
  have hfind : cs.find? (fun c => c.name == name) = none := by
    refine List.find?_eq_none.mpr fun c hc => ?_
    rw [beq_iff_eq]
    exact hno c hc
  rw [markersOfType_annotationModel, hfind]

/-- Declarations of the same types with the same annotations agree on what the
annotations are. -/
theorem markersOfType_annotationModel_congr {cs cs' : List ClassDecl}
    (hnd : (cs.map (·.name)).Nodup) (hnd' : (cs'.map (·.name)).Nodup)
    (h : ∀ c ∈ cs, ∃ c' ∈ cs', c'.name = c.name ∧ c'.annotations = c.annotations)
    (h' : ∀ c' ∈ cs', ∃ c ∈ cs, c.name = c'.name) (name : String) :
    (annotationModel cs).markersOfType name
      = (annotationModel cs').markersOfType name := by
  by_cases hname : ∃ c ∈ cs, c.name = name
  · obtain ⟨c, hc, rfl⟩ := hname
    obtain ⟨c', hc', heq, hann⟩ := h c hc
    rw [markersOfType_annotationModel_of_mem hnd hc, ← heq,
      markersOfType_annotationModel_of_mem hnd' hc', hann]
  · have hno : ∀ c ∈ cs, c.name ≠ name := fun c hc heq => hname ⟨c, hc, heq⟩
    have hno' : ∀ c' ∈ cs', c'.name ≠ name := by
      intro c' hc' heq
      obtain ⟨c, hc, hcc'⟩ := h' c' hc'
      exact hno c hc (hcc'.trans heq)
    rw [markersOfType_annotationModel_of_forall_ne hno,
      markersOfType_annotationModel_of_forall_ne hno']

namespace CodeBase

variable {b : CodeBase} {cs : List ClassDecl} {c : ClassDecl} {u : Use}
  {d : Dependency} {name : String} {i : ElementId}

/-! ### Ids by name -/

/-- The id that the name of a type stands for. -/
def idOf (b : CodeBase) (name : String) : ElementId :=
  (b.classId? name).getD 0

/-- The element of a declared type. -/
def typeElement (b : CodeBase) (c : ClassDecl) : Element :=
  .ofClass (b.idOf c.name) c

theorem Indexed.idOf_eq (h : b.Indexed) (hi : b.IsType name i) :
    b.idOf name = i := by
  rw [idOf, h.classId?_iff.mpr hi, Option.getD_some]

/-- A type has one name. -/
theorem Indexed.isType_name (h : b.Indexed) {name' : String}
    (hi : b.IsType name i) (hi' : b.IsType name' i) : name = name' := by
  obtain ⟨e, he, rfl, -, rfl⟩ := hi
  obtain ⟨e', he', hid, -, rfl⟩ := hi'
  rw [h.eq_of_id_eq he he' hid.symm]

theorem isType_ofClass (h : .ofClass i c ∈ b.elements) : b.IsType c.name i :=
  ⟨_, h, rfl, rfl, rfl⟩

theorem Indexed.typeElement_eq (h : b.Indexed) (hc : .ofClass i c ∈ b.elements) :
    b.typeElement c = .ofClass i c := by
  rw [typeElement, h.idOf_eq (isType_ofClass hc)]

/-! ### Types -/

theorem Depicts.ofClass_mem (h : b.Depicts cs) (hc : cs[i]? = some c) :
    .ofClass i c ∈ b.elements := by
  obtain ⟨stubs, hes, -⟩ := h.elements
  rw [hes, declaredTable_eq, List.append_assoc]
  exact List.mem_append_left _ (mem_typeElements.mpr ⟨i, c, hc, rfl⟩)

theorem Depicts.typeElement_mem (h : b.Depicts cs) (hc : c ∈ cs) :
    b.typeElement c ∈ b.elements := by
  obtain ⟨i, hi⟩ := List.mem_iff_getElem?.mp hc
  rw [h.sound.indexed.typeElement_eq (h.ofClass_mem hi)]
  exact h.ofClass_mem hi

theorem Depicts.isType (h : b.Depicts cs) (hc : c ∈ cs) :
    b.IsType c.name (b.idOf c.name) :=
  isType_ofClass (h.typeElement_mem hc)

/-- The declared types are the declarations' types, in order. -/
theorem Depicts.classes_eq (h : b.Depicts cs) :
    b.classes = cs.map b.typeElement := by
  rw [h.classes_eq_typeElements]
  apply List.ext_getElem?
  intro i
  rw [getElem?_typeElements, List.getElem?_map]
  -- a declared type's place is the id that its name stands for
  rcases hc : cs[i]? with - | c
  · rfl
  · exact congrArg some (h.sound.indexed.typeElement_eq (h.ofClass_mem hc)).symm

/-- The names of declared types stand for different ids. -/
theorem Depicts.nodup_ids (h : b.Depicts cs) :
    (cs.map fun c => b.idOf c.name).Nodup := by
  refine List.pairwise_map.mpr ?_
  refine (List.pairwise_map.mp h.nodup).imp_of_mem ?_
  intro c c' hc hc' hne heq
  refine hne (h.sound.indexed.isType_name (h.isType hc) ?_)
  rw [heq]
  exact h.isType hc'

/-! ### Members -/

/-- The declared members of a type are those of its declaration, in order, with
the implicit constructor last. -/
theorem Depicts.membersOf_eq (h : b.Depicts cs) (hc : c ∈ cs) :
    ∃ ms : List (Placed MemberDecl), ms.map (·.decl) = c.allMembers
      ∧ b.membersOf (b.idOf c.name)
        = ms.map fun m => .ofMember m.id (b.idOf c.name) c.name m.decl := by
  obtain ⟨i, hi⟩ := List.mem_iff_getElem?.mp hc
  have hid : b.idOf c.name = i :=
    h.sound.indexed.idOf_eq (isType_ofClass (h.ofClass_mem hi))
  refine ⟨placedFrom (firstMemberId cs i) c.allMembers, map_decl_placedFrom _ _, ?_⟩
  rw [hid, h.membersOf_eq_membersAt hi, map_placedFrom]
  rfl

/-! ### The ends of dependencies -/

theorem Indexed.resolve_of_mem (h : b.Indexed) {e : Element}
    (he : e ∈ b.elements) : b.model.resolve e.id = .ok e :=
  CodeModel.resolve_of_some (h.element?_of_mem he)

/-- The type of an element is found. -/
theorem Indexed.ownerOf_of_mem (h : b.Indexed) {e o : Element} (ho : o ∈ b.elements)
    (howner : e.owner = some o.id) : b.model.ownerOf e = .ok o := by
  refine CodeModel.ownerOf_of_some ?_
  rw [howner]
  exact h.element?_of_mem ho

/-- The element that makes a use. -/
def originElement (b : CodeBase) (u : Use) (o : ElementId) : Element :=
  match u.member with
  | none => b.typeElement u.owner
  | some m => .ofMember o (b.idOf u.owner.name) u.owner.name m

theorem kind_originElement (b : CodeBase) (u : Use) (o : ElementId) :
    (b.originElement u o).kind = u.originKind := by
  unfold originElement Use.originKind
  cases u.member <;> rfl

theorem fullName_originElement (b : CodeBase) (u : Use) (o : ElementId) :
    (b.originElement u o).fullName = u.originName := by
  unfold originElement Use.originName
  cases u.member <;> rfl

theorem Records.isType_owner (hu : b.Records u d) :
    b.IsType u.owner.name d.originClass :=
  isType_ofClass hu.origin.1

theorem Records.resolve_originClass (hb : b.Sound) (hu : b.Records u d) :
    b.model.resolve d.originClass = .ok (b.typeElement u.owner) := by
  rw [hb.indexed.typeElement_eq hu.origin.1]
  exact hb.indexed.resolve_of_mem hu.origin.1

theorem Records.resolve_origin (hb : b.Sound) (hu : b.Records u d) :
    b.model.resolve d.origin = .ok (b.originElement u d.origin) := by
  have horigin := hu.origin.2
  unfold originElement
  rcases hm : u.member with _ | m
  · rw [hm] at horigin
    rw [show d.origin = d.originClass from horigin]
    exact hu.resolve_originClass hb
  · rw [hm] at horigin
    rw [hb.indexed.idOf_eq hu.isType_owner]
    exact hb.indexed.resolve_of_mem horigin

/-- The type of a member that makes a use is found. -/
theorem Records.ownerOf_origin (hb : b.Sound) (hu : b.Records u d)
    {m : MemberDecl} (hm : u.member = some m) :
    b.model.ownerOf (b.originElement u d.origin) = .ok (b.typeElement u.owner) := by
  rw [hb.indexed.typeElement_eq hu.origin.1]
  refine hb.indexed.ownerOf_of_mem hu.origin.1 ?_
  rw [originElement, hm, hb.indexed.idOf_eq hu.isType_owner]
  rfl

theorem Records.resolve_targetClass (hb : b.Sound) (hu : b.Records u d) :
    ∃ e, b.model.resolve d.targetClass = .ok e ∧ e.kind = .type
      ∧ e.fullName = u.targetClass := by
  obtain ⟨⟨e, he, hid, hkind, hname⟩, -⟩ := hu.target
  exact ⟨e, hid ▸ hb.indexed.resolve_of_mem he, hkind, hname⟩

theorem Records.resolve_target (hb : b.Sound) (hu : b.Records u d) :
    ∃ e, b.model.resolve d.target = .ok e ∧ e.fullName = u.targetName := by
  obtain ⟨⟨t, ht, htid, -, htname⟩, htarget⟩ := hu.target
  unfold Use.targetName
  rcases hr : u.target with _ | r
  · rw [hr] at htarget
    rw [show d.target = d.targetClass from htarget]
    exact ⟨t, htid ▸ hb.indexed.resolve_of_mem ht, htname⟩
  · rw [hr] at htarget
    obtain ⟨e, he, hid, howner, href⟩ := htarget
    refine ⟨e, hid ▸ hb.indexed.resolve_of_mem he, ?_⟩
    -- a member is named after its type, declared or not
    obtain ⟨hkind, hname, hparams⟩ := refersTo_iff.mp href
    obtain ⟨o, ho, -, howner', hfull⟩ := hb.exists_owner he hkind
    rw [howner, Option.some.injEq] at howner'
    obtain rfl := hb.indexed.eq_of_id_eq ht ho (htid.trans howner')
    show e.fullName = r.fullName u.targetClass
    rw [hfull, htname, hname, MemberRef.fullName_eq]
    refine MemberKind.fullName_congr ?_
    rcases hparams with hf | hp
    · exact Or.inl (ElementKind.member.inj hf)
    · exact Or.inr hp

/-- A dependency and the use it records are described alike. -/
theorem Records.describe_eq (hu : b.Records u d) {e : Element}
    (he : e.fullName = u.targetName) :
    d.describe (b.originElement u d.origin) (b.typeElement u.owner) e
      = u.describe := by
  simp only [Dependency.describe, Dependency.location, Use.describe,
    Element.display, kind_originElement, fullName_originElement, he, hu.kind_eq,
    hu.line_eq]
  rfl

/-! ### Dependencies from and to a type -/

theorem Records.originClass_beq (hb : b.Sound) (hu : b.Records u d)
    (hi : b.IsType name i) : (d.originClass == i) = (u.owner.name == name) := by
  rw [Bool.eq_iff_iff, beq_iff_eq, beq_iff_eq]
  constructor
  · rintro rfl
    exact hb.indexed.isType_name hu.isType_owner hi
  · rintro rfl
    exact hb.indexed.isType_unique hu.isType_owner hi

theorem Records.targetClass_beq (hb : b.Sound) (hu : b.Records u d)
    (hi : b.IsType name i) : (d.targetClass == i) = (u.targetClass == name) := by
  rw [Bool.eq_iff_iff, beq_iff_eq, beq_iff_eq]
  constructor
  · rintro rfl
    exact hb.indexed.isType_name hu.target.1 hi
  · rintro rfl
    exact hb.indexed.isType_unique hu.target.1 hi

theorem Records.isSelfEdge_eq (hb : b.Sound) (hu : b.Records u d) :
    d.isSelfEdge = (u.owner.name == u.targetClass) :=
  hu.originClass_beq hb hu.target.1

/-- The uses made in a type are those of its declaration. -/
theorem filter_uses_owner (hnd : (cs.map (·.name)).Nodup) (hc : c ∈ cs) :
    (cs.flatMap (·.uses)).filter (fun u => u.owner.name == c.name) = c.uses := by
  have howner : ∀ c' : ClassDecl,
      c'.uses.filter (fun u => u.owner.name == c.name)
        = if c'.name = c.name then c'.uses else [] := by
    intro c'
    split
    · rename_i hname
      refine List.filter_eq_self.mpr fun u hu => ?_
      rw [(ClassDecl.proper_uses hu).owner_eq, hname, beq_self_eq_true]
    · rename_i hname
      refine List.filter_eq_nil_iff.mpr fun u hu => ?_
      rw [(ClassDecl.proper_uses hu).owner_eq, beq_iff_eq]
      exact hname
  rw [List.filter_flatMap]
  simp only [howner]
  induction cs with
  | nil => cases hc
  | cons c' cs ih =>
    rw [List.map_cons, List.nodup_cons] at hnd
    rw [List.flatMap_cons]
    rcases List.mem_cons.mp hc with rfl | hc
    · -- no later type has this name
      have hrest : ∀ c' ∈ cs, (if c'.name = c.name then c'.uses else []) = [] := by
        intro c' hc'
        refine if_neg fun heq => hnd.1 ?_
        rw [← heq]
        exact List.mem_map_of_mem hc'
      rw [if_pos rfl, List.flatMap_eq_nil_iff.mpr hrest, List.append_nil]
    · have hne : c'.name ≠ c.name :=
        fun heq => hnd.1 (heq ▸ List.mem_map_of_mem hc)
      rw [if_neg hne, List.nil_append, ih hnd.2 hc]

/-! ### Type by type through all dependencies -/

section TypeByType

variable {ds : List Dependency}

/-- A dependency that records a use in one of some types starts in that type. -/
theorem Sound.originClass_of_records (hb : b.Sound)
    (h : List.Forall₂ b.Records (cs.flatMap (·.uses)) ds) {d : Dependency}
    (hd : d ∈ ds) : ∃ c ∈ cs, d.originClass = b.idOf c.name := by
  obtain ⟨u, hu, hrec⟩ := exists_rel_of_mem h hd
  obtain ⟨c, hc, huc⟩ := List.mem_flatMap.mp hu
  refine ⟨c, hc, ?_⟩
  rw [← (ClassDecl.proper_uses huc).owner_eq, hb.indexed.idOf_eq hrec.isType_owner]

/-- What records the uses in some types, taken apart by the type in which it
starts and put together again, is the same list. -/
theorem Sound.flatMap_filter_originClass (hb : b.Sound)
    (hids : (cs.map fun c => b.idOf c.name).Nodup)
    (h : List.Forall₂ b.Records (cs.flatMap (·.uses)) ds) :
    (cs.flatMap fun c => ds.filter fun d => d.originClass == b.idOf c.name)
      = ds := by
  induction cs generalizing ds with
  | nil =>
    cases h
    rfl
  | cons c cs ih =>
    rw [List.map_cons, List.nodup_cons, List.mem_map] at hids
    obtain ⟨hnew, hids⟩ := hids
    rw [List.flatMap_cons] at h
    -- the uses in the first type are recorded before those in the others
    obtain ⟨first, rest, hfirst, hrest, rfl⟩ := forall₂_append_left h
    have hin : ∀ d ∈ first, d.originClass = b.idOf c.name := by
      intro d hd
      have hone : List.Forall₂ b.Records ([c].flatMap (·.uses)) first := by
        rwa [List.flatMap_singleton]
      obtain ⟨c', hc', horigin⟩ := hb.originClass_of_records hone hd
      rw [horigin, List.mem_singleton.mp hc']
    have hout : ∀ d ∈ rest, d.originClass ≠ b.idOf c.name := by
      intro d hd heq
      obtain ⟨c', hc', horigin⟩ := hb.originClass_of_records hrest hd
      exact hnew ⟨c', hc', horigin.symm.trans heq⟩
    have hhead : (first ++ rest).filter (fun d => d.originClass == b.idOf c.name)
        = first := by
      rw [List.filter_append, List.filter_eq_self.mpr, List.filter_eq_nil_iff.mpr,
        List.append_nil]
      · intro d hd
        rw [beq_iff_eq]
        exact hout d hd
      · intro d hd
        rw [beq_iff_eq]
        exact hin d hd
    have htail : ∀ c' ∈ cs,
        (first ++ rest).filter (fun d => d.originClass == b.idOf c'.name)
          = rest.filter fun d => d.originClass == b.idOf c'.name := by
      intro c' hc'
      rw [List.filter_append, List.filter_eq_nil_iff.mpr, List.nil_append]
      intro d hd
      rw [beq_iff_eq, hin d hd]
      exact fun heq => hnew ⟨c', hc', heq.symm⟩
    rw [List.flatMap_cons, hhead, List.flatMap_congr htail, ih hids hrest]

/-- Gone through type by type, what starts in the declared types is all there
is, in order. -/
theorem Depicts.flatMap_outgoing (h : b.Depicts cs) :
    (b.classes.flatMap fun c => b.outgoing c.id) = b.dependencies := by
  have houtgoing : ∀ c : ClassDecl, b.outgoing (b.typeElement c).id
      = b.dependencies.filter fun d => d.originClass == b.idOf c.name :=
    fun c => h.sound.indexed.outgoing_eq _
  rw [h.classes_eq, List.flatMap_map]
  simp only [houtgoing]
  exact h.sound.flatMap_filter_originClass h.nodup_ids h.edges

end TypeByType

variable (h : b.Depicts cs) (hc : c ∈ cs)

include h hc

/-- What starts in a type records what its declaration uses. -/
theorem Depicts.outgoing_records :
    List.Forall₂ b.Records c.uses (b.outgoing (b.idOf c.name)) := by
  rw [h.sound.indexed.outgoing_eq, ← filter_uses_owner h.nodup hc]
  refine forall₂_filter h.edges fun u d hu => ?_
  exact (hu.originClass_beq h.sound (h.isType hc)).symm

/-- What ends in a type records the uses of it. -/
theorem Depicts.incoming_records :
    List.Forall₂ b.Records (usesOf cs c.name) (b.incoming (b.idOf c.name)) := by
  rw [h.sound.indexed.incoming_eq, usesOf]
  refine forall₂_filter h.edges fun u d hu => ?_
  exact (hu.targetClass_beq h.sound (h.isType hc)).symm

theorem Depicts.dependenciesFrom_records :
    List.Forall₂ b.Records (c.uses.filter fun u => !(u.owner.name == u.targetClass))
      (b.model.dependenciesFrom (b.idOf c.name)) :=
  forall₂_filter (h.outgoing_records hc) fun _ _ hu => by
    rw [hu.isSelfEdge_eq h.sound]

theorem Depicts.callsFrom_records :
    List.Forall₂ b.Records (c.uses.filter (·.kind.isAccess))
      (b.model.callsFrom (b.idOf c.name)) :=
  forall₂_filter (h.outgoing_records hc) fun _ _ hu => by rw [hu.kind_eq]

theorem Depicts.callsTo_records :
    List.Forall₂ b.Records ((usesOf cs c.name).filter (·.kind.isAccess))
      (b.model.callsTo (b.idOf c.name)) :=
  forall₂_filter (h.incoming_records hc) fun _ _ hu => by rw [hu.kind_eq]

omit hc

/-! ### Annotations -/

theorem Depicts.markersOfType_of_mem (hc : c ∈ cs) :
    b.model.markersOfType c.name = c.annotations.map (·.typeName) := by
  have hfound : b.element? (b.idOf c.name) = some (b.typeElement c) :=
    h.sound.indexed.element?_of_mem (h.typeElement_mem hc)
  have hnamed : b.model.classNamed? c.name = some (b.typeElement c) := by
    show (b.classId? c.name).bind b.element? = _
    rw [h.sound.indexed.classId?_iff.mpr (h.isType hc), Option.bind_some, hfound]
  simp only [CodeModel.markersOfType, hnamed]
  rfl

/-- A type that is not declared is a stub. -/
theorem Depicts.isStub_of_type {e : Element} (he : e ∈ b.elements)
    (hkind : e.kind = .type) (hno : ∀ c ∈ cs, c.name ≠ e.fullName) :
    e.isStub = true := by
  by_contra hdeclared
  have hclass : e ∈ b.classes := by
    rw [h.sound.indexed.classes_eq]
    exact List.mem_filter.mpr ⟨he, by simp [Element.isDeclaredType, hkind, hdeclared]⟩
  rw [h.classes_eq] at hclass
  obtain ⟨c, hc, rfl⟩ := List.mem_map.mp hclass
  exact hno c hc rfl

theorem Depicts.markersOfType_of_forall_ne (hno : ∀ c ∈ cs, c.name ≠ name) :
    b.model.markersOfType name = [] := by
  unfold CodeModel.markersOfType
  split
  · rename_i e he
    obtain ⟨i, hi, hei⟩ := Option.bind_eq_some_iff.mp he
    obtain ⟨e', he', hid, hkind, rfl⟩ := h.sound.indexed.classId?_iff.mp hi
    have hmem := mem_of_element? hei
    obtain rfl := h.sound.indexed.eq_of_id_eq hmem he'
      ((h.sound.indexed.element_id hei).trans hid.symm)
    -- the type that was found is a stub, and stubs are not annotated
    have hblank := (h.sound.orderly.stubOnly e hmem).blank
      (h.isStub_of_type hmem hkind hno)
    rw [Element.markers, hblank.2.1, List.map_nil]
  · rfl

/-- Only declared types are annotated. -/
theorem Depicts.markersOfType_eq (name : String) :
    b.model.markersOfType name = (annotationModel cs).markersOfType name := by
  by_cases hname : ∃ c ∈ cs, c.name = name
  · obtain ⟨c, hc, rfl⟩ := hname
    rw [h.markersOfType_of_mem hc, markersOfType_annotationModel_of_mem h.nodup hc]
  · have hno : ∀ c ∈ cs, c.name ≠ name := fun c hc heq => hname ⟨c, hc, heq⟩
    rw [h.markersOfType_of_forall_ne hno,
      markersOfType_annotationModel_of_forall_ne hno]

/-- Annotations on annotations are those of the declarations. -/
theorem Depicts.isMetaAnnotatedWith_eq (e : Element) (marker : String) :
    b.model.isMetaAnnotatedWith e marker
      = (annotationModel cs).isMetaAnnotatedWith e marker :=
  CodeModel.isMetaAnnotatedWith_congr rfl h.markersOfType_eq

end CodeBase

end Conformance
