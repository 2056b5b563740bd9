/-
Conformance/Proofs/Linked.lean

The dependencies of a code base are the uses in its declarations.

Step 4 of a build walks over what the declarations mention and enters one
dependency per use, making stubs as it goes.  A stub may be found again by any
later use, so the table that a use is resolved in is still growing.  What makes
this harmless is that the table only grows (`Grows`) and stays sound: a use that
is recorded rightly at some point (`Records`) is recorded rightly ever
after.  `Links b b' us` says that going from `b` to `b'` records the uses `us`
and does nothing else but make stubs; it composes, so a whole run is put
together from single steps (`links_foldl`).

The main lemma is `depicts_build`: a built code base depicts its declarations
(`Depicts`), i.e. its elements are what is declared and stubs, and its
dependencies are the declarations' uses, one for one and in order.
-/
import Mathlib.Data.List.Forall2
import Conformance.Proofs.Declared
import Conformance.Proofs.Uses

namespace Conformance

/-! ### Lists side by side -/

section SideBySide

variable {α β : Type} {R : α → β → Prop} {as : List α} {bs : List β}

/-- What stands in the second of two related lists is related to something in
the first. -/
theorem exists_rel_of_mem (h : List.Forall₂ R as bs) {y : β} (hy : y ∈ bs) :
    ∃ x ∈ as, R x y := by
  induction h with
  | nil => cases hy
  | cons hxy _ ih =>
    rcases List.mem_cons.mp hy with rfl | hy
    · exact ⟨_, List.mem_cons_self, hxy⟩
    · obtain ⟨x, hx, hR⟩ := ih hy
      exact ⟨x, List.mem_cons_of_mem _ hx, hR⟩

/-- Related lists stay related if related entries are kept alike. -/
theorem forall₂_filter (h : List.Forall₂ R as bs) {p : α → Bool} {q : β → Bool}
    (hpq : ∀ a b, R a b → p a = q b) :
    List.Forall₂ R (as.filter p) (bs.filter q) := by
  refine List.rel_filter ?_ h
  intro a b hab
  show p a = true ↔ q b = true
  rw [hpq a b hab]

/-- Related lists pass the same tests, if related entries do. -/
theorem any_of_forall₂ (h : List.Forall₂ R as bs) {p : α → Bool} {q : β → Bool}
    (hpq : ∀ a b, R a b → p a = q b) : as.any p = bs.any q := by
  induction h with
  | nil => rfl
  | cons hab _ ih => rw [List.any_cons, List.any_cons, hpq _ _ hab, ih]

/-- What is related to one list after another falls into two parts. -/
theorem forall₂_append_left {as' : List α} (h : List.Forall₂ R (as ++ as') bs) :
    ∃ first rest, List.Forall₂ R as first ∧ List.Forall₂ R as' rest
      ∧ bs = first ++ rest := by
  refine ⟨bs.take as.length, bs.drop as.length, ?_, ?_, ?_⟩
  · simpa using List.forall₂_take as.length h
  · simpa using List.forall₂_drop as.length h
  · rw [List.take_append_drop]

end SideBySide

namespace CodeBase

variable {b b' b'' : CodeBase}

/-! ### Growing by stubs -/

/-- All elements of `b` are in `b'` under their ids, and what `b'` has besides
are stubs. -/
def Grows (b b' : CodeBase) : Prop :=
  ∃ stubs, b'.elements = b.elements ++ stubs ∧ ∀ e ∈ stubs, e.isStub = true

theorem Grows.refl (b : CodeBase) : Grows b b :=
  ⟨[], by simp, by simp⟩

theorem Grows.trans (h : Grows b b') (h' : Grows b' b'') : Grows b b'' := by
  obtain ⟨s, hs, hall⟩ := h
  obtain ⟨s', hs', hall'⟩ := h'
  refine ⟨s ++ s', by rw [hs', hs, List.append_assoc], ?_⟩
  intro e he
  rcases List.mem_append.mp he with he | he
  · exact hall e he
  · exact hall' e he

theorem Grows.mem {e : Element} (h : Grows b b') (he : e ∈ b.elements) :
    e ∈ b'.elements := by
  obtain ⟨stubs, hstubs, -⟩ := h
  rw [hstubs]
  exact List.mem_append_left _ he

theorem IsType.grow {name : String} {i : ElementId} (h : Grows b b')
    (hi : b.IsType name i) : b'.IsType name i := by
  obtain ⟨e, he, hrest⟩ := hi
  exact ⟨e, h.mem he, hrest⟩

theorem IsMember.grow {c : ElementId} {r : MemberRef} {i : ElementId}
    (h : Grows b b') (hi : b.IsMember c r i) : b'.IsMember c r i := by
  obtain ⟨e, he, hrest⟩ := hi
  exact ⟨e, h.mem he, hrest⟩

/-! ### Recorded uses -/

/-- Under ids `o` and `oc`, the code base holds the maker of a use and the type
in which it is made. -/
def IsOrigin (b : CodeBase) (c : ClassDecl) (m : Option MemberDecl)
    (o oc : ElementId) : Prop :=
  .ofClass oc c ∈ b.elements ∧
    match m with
    | none => o = oc
    | some m => .ofMember o oc c.name m ∈ b.elements

/-- Under ids `t` and `tc`, the code base holds what is used and the type it
belongs to. -/
def IsTarget (b : CodeBase) (name : String) (r : Option MemberRef)
    (t tc : ElementId) : Prop :=
  b.IsType name tc ∧
    match r with
    | none => t = tc
    | some r => b.IsMember tc r t

/-- A dependency is the record of a use. -/
structure Records (b : CodeBase) (u : Use) (d : Dependency) : Prop where
  kind_eq : d.kind = u.kind
  line_eq : d.line = u.line
  origin : b.IsOrigin u.owner u.member d.origin d.originClass
  target : b.IsTarget u.targetClass u.target d.target d.targetClass

theorem IsOrigin.grow {c : ClassDecl} {m : Option MemberDecl}
    {o oc : ElementId} (h : Grows b b') (ho : b.IsOrigin c m o oc) :
    b'.IsOrigin c m o oc := by
  refine ⟨h.mem ho.1, ?_⟩
  rcases m with - | m
  · exact ho.2
  · exact h.mem ho.2

theorem IsTarget.grow {name : String} {r : Option MemberRef}
    {t tc : ElementId} (h : Grows b b') (ht : b.IsTarget name r t tc) :
    b'.IsTarget name r t tc := by
  refine ⟨ht.1.grow h, ?_⟩
  rcases r with - | r
  · exact ht.2
  · exact IsMember.grow h ht.2

theorem Records.grow {u : Use} {d : Dependency} (h : Grows b b')
    (hu : b.Records u d) : b'.Records u d :=
  ⟨hu.kind_eq, hu.line_eq, hu.origin.grow h, hu.target.grow h⟩

/-! ### Runs that record uses -/

/-- Going from `b` to `b'` records the uses `us`, in order. -/
structure Links (b b' : CodeBase) (us : List Use) : Prop where
  sound : b'.Sound
  grows : Grows b b'
  edges : ∃ ds, b'.dependencies = b.dependencies ++ ds
    ∧ List.Forall₂ b'.Records us ds

theorem Links.refl (h : b.Sound) : Links b b [] :=
  ⟨h, .refl b, [], by simp, .nil⟩

theorem Links.trans {us us' : List Use} (h : Links b b' us)
    (h' : Links b' b'' us') : Links b b'' (us ++ us') := by
  obtain ⟨ds, hds, hrec⟩ := h.edges
  obtain ⟨ds', hds', hrec'⟩ := h'.edges
  refine ⟨h'.sound, h.grows.trans h'.grows, ds ++ ds', ?_, ?_⟩
  · rw [hds', hds, List.append_assoc]
  · -- what the first run recorded outlasts the second
    have hkept : List.Forall₂ b''.Records us ds :=
      hrec.imp fun u d hu => hu.grow h'.grows
    exact List.rel_append hkept hrec'

/-- If each step of a run records its uses, wherever the run has got to, the
run records all of them. -/
theorem links_foldl {α : Type} {step : CodeBase → α → CodeBase}
    {uses : α → List Use} {as : List α} (hb : b.Sound)
    (hstep : ∀ b', Grows b b' → b'.Sound → ∀ a ∈ as,
      Links b' (step b' a) (uses a)) :
    Links b (as.foldl step b) (as.flatMap uses) := by
  induction as generalizing b with
  | nil => exact .refl hb
  | cons a as ih =>
    have hfirst := hstep b (.refl b) hb a List.mem_cons_self
    rw [List.foldl_cons, List.flatMap_cons]
    refine hfirst.trans (ih hfirst.sound ?_)
    intro b' hgrow hsound a' ha'
    exact hstep b' (hfirst.grows.trans hgrow) hsound a' (List.mem_cons_of_mem _ ha')

/-! ### One mention -/

/-- The type with a name is there afterwards, if need be as a stub. -/
theorem ensureClass_spec (h : b.Sound) (name : String) :
    (b.ensureClass name).1.Sound ∧ Grows b (b.ensureClass name).1
      ∧ (b.ensureClass name).1.dependencies = b.dependencies
      ∧ (b.ensureClass name).1.IsType name (b.ensureClass name).2 := by
  unfold ensureClass
  split
  · rename_i id hid
    exact ⟨h, .refl b, rfl, h.indexed.classId?_iff.mp hid⟩
  · rename_i hnone
    refine ⟨?_, ⟨[_], elements_addType b _, by simp [Element.stubClass]⟩, rfl, ?_⟩
    · exact h.addType rfl rfl rfl (fun _ => Or.inl ⟨name, rfl⟩) hnone
    · exact ⟨.stubClass b.nextId name, by simp, rfl, rfl, rfl⟩

/-- The member that an access means is there afterwards, if need be as a
stub. -/
theorem ensureMember_spec (h : b.Sound) {c : ElementId} {a : AccessDecl}
    (hc : b.IsType a.owner c) :
    (b.ensureMember c a).1.Sound ∧ Grows b (b.ensureMember c a).1
      ∧ (b.ensureMember c a).1.dependencies = b.dependencies
      ∧ (b.ensureMember c a).1.IsMember c a.target (b.ensureMember c a).2 := by
  unfold ensureMember
  split
  · rename_i m hm
    obtain ⟨hmem, howner, href⟩ := h.indexed.member?_eq_some hm
    exact ⟨h, .refl b, rfl, m, hmem, rfl, howner, href⟩
  · rename_i hnone
    -- no member fits, so the stub is told apart from all there are
    obtain ⟨o, ho, rfl, hkind, hname⟩ := hc
    refine ⟨?_, ⟨[_], elements_addMember b _ _, by simp [Element.stubMember]⟩, rfl, ?_⟩
    · refine h.addMember ho hkind rfl rfl rfl ?_ (fun _ => Or.inr ⟨o.id, a, rfl⟩) ?_
      · rw [hname]
        exact MemberRef.fullName_eq a.owner a.target
      · intro e he howner halike
        have hno := h.indexed.member?_eq_none hnone he howner
        exact absurd halike (Bool.not_eq_true _ ▸ hno)
    · refine ⟨.stubMember b.nextId o.id a, by simp, rfl, rfl, ?_⟩
      exact refersTo_iff.mpr ⟨rfl, rfl, Or.inr rfl⟩

theorem IsType.lt {name : String} {i : ElementId} (h : b.Sound)
    (hi : b.IsType name i) : i < b.nextId := by
  obtain ⟨e, he, rfl, -⟩ := hi
  exact h.indexed.id_lt he

/-- A dependency between what a use is made by and what it is of records the
use. -/
theorem links_addEdge {u : Use} {o oc t tc : ElementId} (h : b.Sound)
    (ho : b.IsOrigin u.owner u.member o oc)
    (ht : b.IsTarget u.targetClass u.target t tc) :
    Links b (b.addEdge u.kind o oc t tc u.line) [u] := by
  have hgrows : Grows b (b.addEdge u.kind o oc t tc u.line) :=
    ⟨[], by simp, by simp⟩
  refine ⟨?_, hgrows, [_], dependencies_addEdge b _ _ _ _ _ _, ?_⟩
  · exact h.addEdge (h.indexed.id_lt ho.1) (ht.1.lt h)
  · exact .cons ⟨rfl, rfl, ho.grow hgrows, ht.grow hgrows⟩ .nil

/-- A step that makes stubs only, and then records uses. -/
theorem Links.after_stubs {us : List Use} (hgrows : Grows b b')
    (hdeps : b'.dependencies = b.dependencies) (h : Links b' b'' us) :
    Links b b'' us := by
  obtain ⟨ds, hds, hrec⟩ := h.edges
  exact ⟨h.sound, hgrows.trans h.grows, ds, by rw [hds, hdeps], hrec⟩

theorem connect_type (b : CodeBase) (o oc : ElementId) (kind : DependencyKind)
    (name : String) :
    b.connect ⟨o, oc, .type kind name⟩
      = if Name.elementType name ∈ Name.primitives then b
        else (b.ensureClass (Name.elementType name)).1.addEdge kind o oc
          (b.ensureClass (Name.elementType name)).2
          (b.ensureClass (Name.elementType name)).2 none := by
  simp only [connect, Name.isPrimitive, List.contains_iff_mem]

/-- A mention is recorded as the uses it stands for. -/
theorem links_connect {c : ClassDecl} {m : Option MemberDecl} {o oc : ElementId}
    (h : b.Sound) (ho : b.IsOrigin c m o oc) (mention : Mention) :
    Links b (b.connect ⟨o, oc, mention⟩) (mention.uses c m) := by
  rcases mention with ⟨kind, name⟩ | a
  · show Links b _ (typeUses c m kind name)
    rw [connect_type, typeUses]
    split
    · exact .refl h
    · -- an array counts as its elements' type
      obtain ⟨hs, hg, hd, ht⟩ := ensureClass_spec h (Name.elementType name)
      exact .after_stubs hg hd (links_addEdge (u := ⟨c, m, kind, _, none, none⟩) hs
        (ho.grow hg) ⟨ht, rfl⟩)
  · -- the member is looked for after its type, and both outlast the stubs
    obtain ⟨hs, hg, hd, ht⟩ := ensureClass_spec h a.owner
    obtain ⟨hs', hg', hd', ht'⟩ := ensureMember_spec hs ht
    exact .after_stubs (hg.trans hg') (hd'.trans hd)
      (links_addEdge (u := accessUse c m a) hs' (ho.grow (hg.trans hg'))
        ⟨ht.grow hg', ht'⟩)

/-! ### All mentions -/

/-- All mentions of one maker are recorded. -/
theorem links_mentions {c : ClassDecl} {m : Option MemberDecl}
    {o oc : ElementId} (h : b.Sound) (ho : b.IsOrigin c m o oc)
    (mentions : List Mention) :
    Links b ((mentions.map (⟨o, oc, ·⟩)).foldl connect b)
      (mentions.flatMap (·.uses c m)) := by
  rw [List.foldl_map]
  refine links_foldl h ?_
  intro b' hgrow hsound mention _
  exact links_connect hsound (ho.grow hgrow) mention

/-- A placed type whose declarations are in the code base. -/
structure IsPlaced (b : CodeBase) (c : PlacedClass) : Prop where
  head : .ofClass c.head.id c.head.decl ∈ b.elements
  decls : c.members.map (·.decl) = c.head.decl.members
  members : ∀ m ∈ c.members,
    .ofMember m.id c.head.id c.head.decl.name m.decl ∈ b.elements

theorem IsPlaced.grow {c : PlacedClass} (h : Grows b b') (hc : b.IsPlaced c) :
    b'.IsPlaced c :=
  ⟨h.mem hc.head, hc.decls, fun m hm => h.mem (hc.members m hm)⟩

/-- All that a placed type and its members mention is recorded. -/
theorem links_references {c : PlacedClass} (h : b.Sound) (hc : b.IsPlaced c) :
    Links b (c.references.foldl connect b) c.head.decl.uses := by
  have hhead := links_mentions h (m := none) ⟨hc.head, rfl⟩ c.head.decl.mentions
  have huses : c.head.decl.uses
      = c.head.decl.mentions.flatMap (·.uses c.head.decl none)
        ++ c.members.flatMap fun m => m.decl.uses c.head.decl := by
    rw [← ClassDecl.flatMap_mentions, ← hc.decls, List.flatMap_map]
  rw [PlacedClass.references, List.foldl_append, List.foldl_flatMap, huses]
  refine hhead.trans (links_foldl hhead.sound ?_)
  intro b' hgrow hsound m hm
  have hc' := hc.grow (hhead.grows.trans hgrow)
  rw [← MemberDecl.flatMap_mentions]
  exact links_mentions hsound (m := some m.decl) ⟨hc'.head, hc'.members m hm⟩ _

/-! ### Built code bases -/

theorem map_head_placement (cs : List ClassDecl) :
    (placement cs).map (·.head) = placedFrom 0 cs :=
  map_head_placeMembers cs.length (placedFrom 0 cs)

theorem isPlaced_declaredBase {cs : List ClassDecl} {c : PlacedClass}
    (hc : c ∈ placement cs) : (declaredBase cs).IsPlaced c := by
  obtain ⟨hdecls, hmembers⟩ := mem_placeMembers hc
  have hhead : c.head ∈ placedFrom 0 cs := by
    rw [← map_head_placement]
    exact List.mem_map_of_mem hc
  have hes : (declaredBase cs).elements = _ := elements_declaredBase cs
  refine ⟨?_, hdecls, ?_⟩
  · rw [hes]
    exact List.mem_append_left _ (List.mem_map.mpr ⟨c.head, hhead, rfl⟩)
  · intro m hm
    rw [hes]
    exact List.mem_append_right _ (hmembers m hm)

/-- A code base shows what is declared: its elements are the declared ones and
stubs, and its dependencies are the uses in the declarations. -/
structure Depicts (b : CodeBase) (cs : List ClassDecl) : Prop where
  sound : b.Sound
  nodup : (cs.map (·.name)).Nodup
  elements : ∃ stubs, b.elements = declaredTable cs ++ stubs
    ∧ ∀ e ∈ stubs, e.isStub = true
  edges : List.Forall₂ b.Records (cs.flatMap (·.uses)) b.dependencies

/-- Connecting what is declared gives a code base that shows it. -/
theorem depicts_connect {cs : List ClassDecl} (hnd : (cs.map (·.name)).Nodup)
    (hvalid : ∀ c ∈ cs, c.MembersValid) :
    Depicts (((placement cs).flatMap (·.references)).foldl connect
      (declaredBase cs)) cs := by
  have hlinks : Links (declaredBase cs)
      ((placement cs).foldl (fun b c => c.references.foldl connect b)
        (declaredBase cs))
      ((placement cs).flatMap (·.head.decl.uses)) := by
    refine links_foldl (sound_declaredBase hnd hvalid) ?_
    intro b' hgrow hsound c hc
    exact links_references hsound ((isPlaced_declaredBase hc).grow hgrow)
  have huses : (placement cs).flatMap (·.head.decl.uses) = cs.flatMap (·.uses) := by
    calc (placement cs).flatMap (·.head.decl.uses)
        = (((placement cs).map (·.head)).map (·.decl)).flatMap (·.uses) := by
          rw [List.map_map, List.flatMap_map]; rfl
      _ = cs.flatMap (·.uses) := by rw [map_head_placement, map_decl_placedFrom]
  rw [List.foldl_flatMap]
  obtain ⟨stubs, hstubs, hall⟩ := hlinks.grows
  obtain ⟨ds, hds, hrec⟩ := hlinks.edges
  rw [dependencies_declaredBase, List.nil_append] at hds
  rw [elements_declaredBase] at hstubs
  refine ⟨hlinks.sound, hnd, ⟨stubs, hstubs, hall⟩, ?_⟩
  rw [hds, ← huses]
  exact hrec

end CodeBase

namespace Blueprint

open CodeBase

variable {p : Blueprint} {b : CodeBase}

/-- Building gives a code base that shows the declarations. -/
theorem depicts_build (h : p.build = .ok b) : b.Depicts p.declarations := by
  obtain ⟨hp, rfl⟩ := build_eq_ok_iff.mp h
  refine depicts_connect ?_ hp.members
  rw [p.names_declarations]
  exact hp.nodup

/-- All uses in the declarations of a blueprint, type by type. -/
def uses (p : Blueprint) : List Use :=
  p.declarations.flatMap (·.uses)

/-- **The dependencies are exactly the uses.**  One for one and in order, every
dependency of a built code base records a use in the declarations: it is of the
same kind and line, runs from the element of the declaration that makes the use,
and runs to the type and member that the use names.  There is only one type of a
name, and only one member of a type that a reference means, so a name leaves no
choice.  What a type name means is what is left without the array marks at its
end. -/
theorem dependencies_record_uses (h : p.build = .ok b) :
    List.Forall₂ b.Records p.uses b.dependencies
      ∧ (∀ e ∈ b.elements, b.element? e.id = some e)
      ∧ (∀ name i j, b.IsType name i → b.IsType name j → i = j)
      ∧ (∀ c r i j, b.IsMember c r i → b.IsMember c r j → i = j)
      ∧ ∀ name,
        (∃ depth, name.toList
          = (Name.elementType name).toList ++ Name.arrayMarks depth)
        ∧ ¬ ['[', ']'] <:+ (Name.elementType name).toList := by
  have hb := depicts_build h
  refine ⟨hb.edges, ?_, ?_, ?_, Name.elementType_spec⟩
  · intro e he
    exact hb.sound.indexed.element?_of_mem he
  · intro name i j hi hj
    exact hb.sound.indexed.isType_unique hi hj
  · intro c r i j hi hj
    exact hb.sound.isMember_unique hi hj

/-- A clerk sells items: a superclass that is not declared, an item declared
later, one of its methods given apart, a constructor that nobody declares, and
an access on a field, which counts for nothing. -/
def shop : Blueprint where
  classes :=
    [{ name := "a.Clerk", annotations := [{ typeName := "a.Mark" }]
       superclass := some "a.Person", interfaces := ["a.Payee"]
       members :=
        [{ head := .method "sell", parameters := ["a.Item[]", "int"]
           accesses :=
            [{ owner := "a.Item", target := .method "price" [], line := some 7 },
              { owner := "a.Bill", target := .constructor [] }] }] },
      { name := "a.Item" }]
  lateMembers :=
    [("a.Item", { head := .method "price", returns := some "a.Money" }),
      ("a.Item", { head := .field "parts" "a.Item[][]"
                   accesses := [{ owner := "a.Bin", target := .field "size" }] })]

theorem shop_dependencies : ∃ b, shop.build = .ok b
    ∧ b.dependencies.map (·.kind) = [.annotated, .extending, .implementing,
      .parameterType, .access .method, .access .constructor, .returnType,
      .fieldType]
    ∧ List.Forall₂ b.Records shop.uses b.dependencies :=
  ⟨_, rfl, by decide, (dependencies_record_uses rfl).1⟩

end Blueprint

end Conformance
