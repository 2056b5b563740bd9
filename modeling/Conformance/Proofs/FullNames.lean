/-
Conformance/Proofs/FullNames.lean

Full names tell methods and constructors apart.

A full name is put together from names that may hold anything, so two members
can have the same one.  They cannot if names are like those of source code
(`Blueprint.PlainNames`): no parenthesis in the names of types, neither dot nor
parenthesis in those of members, no method named like a constructor, and
parameter types that are named and hold no comma.  Then a full name can be read
back: the first parenthesis ends the name, the last dot before it ends the
owner's name, and the commas after it part the parameter types
(`Name.ofCodeUnit_inj`).

Elements are not only what is declared.  A stub is named by the use that it was
made for: a dependency runs to it, which records a use, and so it is called what
the use says (`Records.called`).  Hence all names in a code base are plain if
those in the declarations are (`Depicts.plainNames`), and who has the same full
name has the same owner, name and parameter types; that leaves one member.
-/
import Mathlib.Tactic.MkIffOfInductiveProp
import Conformance.Proofs.ElementTable
import Conformance.Proofs.Identities

namespace Conformance

/-! ### Reading full names back -/

namespace Name

/-- The name of a type, as far as parentheses go. -/
def PlainType (name : String) : Prop := '(' ∉ name.toList

/-- The name of a parameter type, as far as commas go. -/
def PlainParameter (name : String) : Prop := name ≠ "" ∧ ',' ∉ name.toList

instance (name : String) : Decidable (PlainType name) :=
  inferInstanceAs (Decidable ('(' ∉ name.toList))

instance (name : String) : Decidable (PlainParameter name) :=
  inferInstanceAs (Decidable (name ≠ "" ∧ ',' ∉ name.toList))

theorem toList_ofField (owner name : String) :
    (ofField owner name).toList = owner.toList ++ '.' :: name.toList := by
  simp [ofField]

theorem toList_ofCodeUnit (owner name : String) (parameters : List String) :
    (ofCodeUnit owner name parameters).toList
      = (ofField owner name).toList
        ++ '(' :: ((", ".intercalate parameters).toList ++ [')']) := by
  simp [ofCodeUnit, ofField]

/-- Where names of members hold no dot, fields are told apart. -/
theorem ofField_inj {owner owner' name name' : String} (h : '.' ∉ name.toList)
    (h' : '.' ∉ name'.toList) (heq : ofField owner name = ofField owner' name') :
    owner = owner' ∧ name = name' := by
  have hcut := congrArg String.toList heq
  rw [toList_ofField, toList_ofField] at hcut
  obtain ⟨howner, hname⟩ := Text.eq_of_append_last h h' hcut
  exact ⟨String.toList_inj.mp howner, String.toList_inj.mp hname⟩

/-- A blank after each comma may as well stand before each name but the first. -/
theorem intercalate_comma (t : List Char) (ts : List (List Char)) :
    [',', ' '].intercalate (t :: ts)
      = [','].intercalate (t :: ts.map (' ' :: ·)) := by
  induction ts generalizing t with
  | nil => rfl
  | cons t' ts ih =>
    rw [List.intercalate_cons_cons, ih t', List.map_cons, List.intercalate_cons_cons]
    rcases ts with - | ⟨t'', ts⟩
    · simp
    · simp [List.intercalate_cons_cons]

/-- What stands between the commas of a list of parameter types. -/
theorem pieces_parameters {t : String} {ts : List String}
    (h : ∀ t' ∈ t :: ts, PlainParameter t') :
    Text.pieces ',' (", ".intercalate (t :: ts)).toList
      = t.toList :: (ts.map String.toList).map (' ' :: ·) := by
  have hcomma : ∀ part ∈ t.toList :: (ts.map String.toList).map (' ' :: ·),
      ',' ∉ part := by
    obtain ⟨ht, hts⟩ := List.forall_mem_cons.mp h
    refine List.forall_mem_cons.mpr ⟨ht.2, ?_⟩
    intro part hpart
    rw [List.map_map, List.mem_map] at hpart
    obtain ⟨t', ht', rfl⟩ := hpart
    simpa using (hts t' ht').2
  have hlist : (", ".intercalate (t :: ts)).toList
      = [','].intercalate (t.toList :: (ts.map String.toList).map (' ' :: ·)) := by
    rw [String.toList_intercalate, List.map_cons]
    exact intercalate_comma t.toList (ts.map String.toList)
  rw [hlist, Text.pieces_eq_splitOn]
  exact List.splitOn_intercalate _ hcomma (List.cons_ne_nil _ _)

/-- Parameter types that are named and hold no comma can be told from their list
in words. -/
theorem intercalate_parameters_inj {ts ts' : List String}
    (h : ∀ t ∈ ts, PlainParameter t) (h' : ∀ t ∈ ts', PlainParameter t)
    (heq : ", ".intercalate ts = ", ".intercalate ts') : ts = ts' := by
  -- only the empty list is written as nothing
  have hsome : ∀ {t : String} {ts : List String},
      (∀ t' ∈ t :: ts, PlainParameter t') → ", ".intercalate (t :: ts) ≠ "" := by
    intro t ts hts hnone
    have hpieces := pieces_parameters hts
    rw [hnone] at hpieces
    obtain ⟨ht, -⟩ := List.cons.inj hpieces
    exact (hts t List.mem_cons_self).1 (String.toList_inj.mp ht.symm)
  rcases ts with - | ⟨t, ts⟩ <;> rcases ts' with - | ⟨t', ts'⟩
  · rfl
  · exact absurd heq.symm (hsome h')
  · exact absurd heq (hsome h)
  · have hpieces := congrArg (fun s => Text.pieces ',' s.toList) heq
    simp only [pieces_parameters h, pieces_parameters h'] at hpieces
    obtain ⟨ht, hts⟩ := List.cons.inj hpieces
    have hblank : Function.Injective fun part : List Char => ' ' :: part :=
      fun _ _ hpart => (List.cons.inj hpart).2
    have htoList : Function.Injective String.toList :=
      fun _ _ hname => String.toList_inj.mp hname
    rw [htoList ht, htoList.list_map (hblank.list_map hts)]

theorem not_mem_ofField {owner name : String} (howner : PlainType owner)
    (hname : '(' ∉ name.toList) : '(' ∉ (ofField owner name).toList := by
  rw [toList_ofField]
  simp only [List.mem_append, List.mem_cons, not_or]
  exact ⟨howner, by decide, hname⟩

/-- A full name without a parenthesis in front of its own is read back part by
part. -/
theorem ofCodeUnit_inj {owner owner' name name' : String} {ts ts' : List String}
    (howner : PlainType owner) (howner' : PlainType owner')
    (hname : '.' ∉ name.toList ∧ '(' ∉ name.toList)
    (hname' : '.' ∉ name'.toList ∧ '(' ∉ name'.toList)
    (hts : ∀ t ∈ ts, PlainParameter t) (hts' : ∀ t ∈ ts', PlainParameter t)
    (heq : ofCodeUnit owner name ts = ofCodeUnit owner' name' ts') :
    owner = owner' ∧ name = name' ∧ ts = ts' := by
  have hcut := congrArg String.toList heq
  rw [toList_ofCodeUnit, toList_ofCodeUnit] at hcut
  obtain ⟨hfields, hrest⟩ := Text.eq_of_append_first (not_mem_ofField howner hname.2)
    (not_mem_ofField howner' hname'.2) hcut
  obtain ⟨rfl, rfl⟩ := ofField_inj hname.1 hname'.1 (String.toList_inj.mp hfields)
  have hwords := List.append_cancel_right hrest
  exact ⟨rfl, rfl, intercalate_parameters_inj hts hts' (String.toList_inj.mp hwords)⟩

end Name

/-! ### Plain names in declarations -/

/-- The name of a member that is neither mistaken for a longer name nor, if the
member is a method, for a constructor. -/
@[mk_iff] structure MemberKind.PlainName (kind : MemberKind) (name : String) :
    Prop where
  dot : '.' ∉ name.toList
  parenthesis : '(' ∉ name.toList
  method : kind = .method → name ≠ Name.constructor

/-- The names in an access are plain. -/
@[mk_iff] structure AccessDecl.PlainNames (a : AccessDecl) : Prop where
  owner : Name.PlainType a.owner
  name : a.target.kind.PlainName a.target.name
  parameters : ∀ t ∈ a.target.parameters, Name.PlainParameter t

/-- The names in the declaration of a member are plain. -/
@[mk_iff] structure MemberDecl.PlainNames (m : MemberDecl) : Prop where
  name : m.kind.PlainName m.name
  annotations : ∀ a ∈ m.annotations, Name.PlainType a.typeName
  fieldType : ∀ t ∈ m.fieldType.toList, Name.PlainType t
  parameters : ∀ t ∈ m.parameters, Name.PlainType t ∧ Name.PlainParameter t
  returns : ∀ t ∈ m.returns.toList, Name.PlainType t
  accesses : ∀ a ∈ m.accesses, a.PlainNames

/-- The names in the declaration of a type are plain. -/
@[mk_iff] structure ClassDecl.PlainNames (c : ClassDecl) : Prop where
  name : Name.PlainType c.name
  annotations : ∀ a ∈ c.annotations, Name.PlainType a.typeName
  superclass : ∀ t ∈ c.superclass.toList, Name.PlainType t
  interfaces : ∀ t ∈ c.interfaces, Name.PlainType t
  members : ∀ m ∈ c.members, m.PlainNames

/-- All names in declarations are plain. -/
@[mk_iff] structure Blueprint.PlainNames (p : Blueprint) : Prop where
  classes : ∀ c ∈ p.classes, c.PlainNames
  lateMembers : ∀ om ∈ p.lateMembers, om.2.PlainNames

instance (kind : MemberKind) (name : String) : Decidable (kind.PlainName name) :=
  decidable_of_iff' _ (kind.plainName_iff name)

instance (a : AccessDecl) : Decidable a.PlainNames :=
  decidable_of_iff' _ a.plainNames_iff

instance (m : MemberDecl) : Decidable m.PlainNames :=
  decidable_of_iff' _ m.plainNames_iff

instance (c : ClassDecl) : Decidable c.PlainNames :=
  decidable_of_iff' _ c.plainNames_iff

instance (p : Blueprint) : Decidable p.PlainNames :=
  decidable_of_iff' _ p.plainNames_iff

theorem MemberKind.plainName_constructor :
    MemberKind.constructor.PlainName Name.constructor :=
  ⟨by decide, by decide, by decide⟩

/-- A type keeps its plain names when it takes the members given apart. -/
theorem Blueprint.PlainNames.declarations {p : Blueprint} (h : p.PlainNames) :
    ∀ c ∈ p.declarations, c.PlainNames := by
  intro c hc
  obtain ⟨c₀, hc₀, rfl⟩ := List.mem_map.mp hc
  have hplain := h.classes c₀ hc₀
  refine ⟨hplain.name, hplain.annotations, hplain.superclass, hplain.interfaces, ?_⟩
  intro m hm
  rcases List.mem_append.mp hm with hm | hm
  · exact hplain.members m hm
  · obtain ⟨om, hom, rfl⟩ := List.mem_map.mp hm
    exact h.lateMembers om (List.mem_filter.mp hom).1

/-- The implicit constructor has a plain name like the written ones. -/
theorem ClassDecl.PlainNames.allMembers {c : ClassDecl} (h : c.PlainNames) :
    ∀ m ∈ c.allMembers, m.PlainNames := by
  intro m hm
  rcases List.mem_append.mp hm with hm | hm
  · exact h.members m hm
  · rw [ClassDecl.implicitConstructor?] at hm
    split at hm
    · obtain rfl := List.mem_singleton.mp hm
      refine ⟨MemberKind.plainName_constructor, ?_, ?_, ?_, ?_, ?_⟩ <;>
        exact List.forall_mem_nil _
    · cases hm

/-! ### Plain names in uses -/

/-- What is used has a plain name. -/
structure Use.PlainTarget (u : Use) : Prop where
  type : Name.PlainType u.targetClass
  name : ∀ r, u.target = some r → r.kind.PlainName r.name
  parameters : ∀ r, u.target = some r → ∀ t ∈ r.parameters, Name.PlainParameter t

/-- The names in a mention are plain. -/
def Mention.PlainNames : Mention → Prop
  | .type _ name => Name.PlainType name
  | .member a => a.PlainNames

theorem Name.PlainType.elementType {name : String} (h : PlainType name) :
    PlainType (elementType name) := by
  obtain ⟨⟨depth, hdepth⟩, -⟩ := elementType_spec name
  intro hmem
  refine h ?_
  rw [hdepth]
  exact List.mem_append_left _ hmem

theorem Mention.PlainNames.uses {mention : Mention} (h : mention.PlainNames)
    {c : ClassDecl} {m : Option MemberDecl} {u : Use} (hu : u ∈ mention.uses c m) :
    u.PlainTarget := by
  rcases mention with ⟨kind, name⟩ | a
  · rw [Mention.uses, typeUses] at hu
    split at hu
    · cases hu
    · obtain rfl := List.mem_singleton.mp hu
      exact ⟨Name.PlainType.elementType h, by rintro r ⟨⟩, by rintro r ⟨⟩⟩
  · obtain rfl := List.mem_singleton.mp hu
    refine ⟨h.owner, ?_, ?_⟩
    · rintro r ⟨⟩
      exact h.name
    · rintro r ⟨⟩
      exact h.parameters

theorem ClassDecl.PlainNames.mentions {c : ClassDecl} (h : c.PlainNames) :
    ∀ mention ∈ c.mentions, mention.PlainNames := by
  simp only [ClassDecl.mentions, List.forall_mem_append, List.forall_mem_map]
  exact ⟨⟨h.annotations, h.superclass⟩, h.interfaces⟩

theorem MemberDecl.PlainNames.mentions {m : MemberDecl} (h : m.PlainNames) :
    ∀ mention ∈ m.mentions, mention.PlainNames := by
  have hreturn : ∀ t ∈ m.mentionedReturnType, Name.PlainType t := by
    have hvoid : Name.PlainType "void" := by decide
    intro t ht
    rcases hhead : m.head with name | - | ⟨name, type⟩
    · have ht' : t = m.returns.getD "void" := by
        simpa [MemberDecl.mentionedReturnType, MemberDecl.kind, MemberDecl.returnType,
          hhead] using ht
      rcases hreturns : m.returns with - | t'
      · rw [ht', hreturns]
        exact hvoid
      · rw [ht', hreturns]
        exact h.returns t' (by rw [hreturns]; exact List.mem_singleton_self t')
    · simp [MemberDecl.mentionedReturnType, MemberDecl.kind, hhead] at ht
    · simp [MemberDecl.mentionedReturnType, MemberDecl.kind, hhead] at ht
  have haccess : ∀ a ∈ m.mentionedAccesses, a.PlainNames := by
    unfold MemberDecl.mentionedAccesses
    split
    · exact h.accesses
    · exact List.forall_mem_nil _
  simp only [MemberDecl.mentions, List.forall_mem_append, List.forall_mem_map]
  exact ⟨⟨⟨⟨h.annotations, h.fieldType⟩, fun t ht => (h.parameters t ht).1⟩, hreturn⟩,
    haccess⟩

theorem ClassDecl.PlainNames.uses {c : ClassDecl} (h : c.PlainNames) {u : Use}
    (hu : u ∈ c.uses) : u.PlainTarget := by
  rcases ClassDecl.mem_uses.mp hu with ⟨mention, hmention, hu⟩ | ⟨m, hm, mention, hmention, hu⟩
  · exact (h.mentions mention hmention).uses hu
  · exact ((h.members m hm).mentions mention hmention).uses hu

/-! ### Plain names in code bases -/

/-- The names of an element are plain, and a constructor is known by its name. -/
structure Element.PlainNames (e : Element) : Prop where
  type : e.kind = .type → Name.PlainType e.fullName
  name : ∀ kind, e.kind = .member kind → kind.PlainName e.name
  parameters : e.kind.isCodeUnit = true → ∀ t ∈ e.parameters, Name.PlainParameter t
  constructor : e.kind = .member .constructor → e.name = Name.constructor

/-- The name of a method or constructor tells which of them it is. -/
theorem Element.PlainNames.kind_eq {e : Element} (h : e.PlainNames)
    (hcode : e.kind.isCodeUnit = true) :
    e.kind = .member (if e.name = Name.constructor then .constructor else .method) := by
  rcases hk : e.kind with - | (- | - | -)
  · rw [hk] at hcode
    cases hcode
  · rw [if_neg ((h.name _ hk).method rfl)]
  · rw [if_pos (h.constructor hk)]
  · rw [hk] at hcode
    cases hcode

namespace CodeBase

variable {b : CodeBase} {cs : List ClassDecl} {e e' : Element}

/-- Whatever a dependency runs to is called what the use says that it records. -/
theorem Records.called (hb : b.Sound) {u : Use} {d : Dependency}
    (h : b.Records u d) (he : e ∈ b.elements)
    (hto : d.target = e.id ∨ d.targetClass = e.id) :
    (e.kind = .type ∧ e.fullName = u.targetClass)
      ∨ ∃ r, u.target = some r
        ∧ refersTo (.member r.kind) r.name r.parameters e = true := by
  have htype : d.targetClass = e.id → e.kind = .type ∧ e.fullName = u.targetClass := by
    intro hid
    obtain ⟨t, ht, htid, hkind, hname⟩ := h.target.1
    obtain rfl := hb.indexed.eq_of_id_eq ht he (htid.trans hid)
    exact ⟨hkind, hname⟩
  have htarget := h.target.2
  rcases hr : u.target with - | r
  · -- a use of a type runs to the type itself
    rw [hr] at htarget
    refine Or.inl (htype ?_)
    rcases hto with hid | hid
    · exact htarget.symm.trans hid
    · exact hid
  · rw [hr] at htarget
    rcases hto with hid | hid
    · obtain ⟨t, ht, htid, -, href⟩ := htarget
      obtain rfl := hb.indexed.eq_of_id_eq ht he (htid.trans hid)
      exact Or.inr ⟨r, rfl, href⟩
    · exact Or.inl (htype hid)

theorem plainNames_ofMember {m : MemberDecl} (h : m.PlainNames) (id owner : ElementId)
    (ownerName : String) : (Element.ofMember id owner ownerName m).PlainNames where
  type := by rintro ⟨⟩
  name := by
    rintro kind ⟨⟩
    exact h.name
  parameters := fun _ t ht => (h.parameters t ht).2
  constructor := by
    intro hkind
    have hm : m.kind = .constructor := ElementKind.member.inj hkind
    exact MemberDecl.name_of_constructor hm

/-- What a use with plain names runs to has plain names. -/
theorem plainNames_of_called {u : Use} (hu : u.PlainTarget)
    (h : (e.kind = .type ∧ e.fullName = u.targetClass)
      ∨ ∃ r, u.target = some r
        ∧ refersTo (.member r.kind) r.name r.parameters e = true) : e.PlainNames := by
  rcases h with ⟨hkind, hname⟩ | ⟨r, hr, href⟩
  · refine ⟨fun _ => hname ▸ hu.type, ?_, ?_, ?_⟩
    · intro kind hmember
      rw [hkind] at hmember
      cases hmember
    · intro hcode
      rw [hkind] at hcode
      cases hcode
    · intro hmember
      rw [hkind] at hmember
      cases hmember
  · obtain ⟨hkind, hname, hparameters⟩ := refersTo_iff.mp href
    refine ⟨?_, ?_, ?_, ?_⟩
    · intro htype
      rw [hkind] at htype
      cases htype
    · intro kind hmember
      obtain rfl := ElementKind.member.inj (hkind.symm.trans hmember)
      rw [hname]
      exact hu.name r hr
    · intro hcode
      rcases hparameters with hfield | hparameters
      · rw [hkind, hfield] at hcode
        cases hcode
      · rw [hparameters]
        exact hu.parameters r hr
    · intro hmember
      have hr : r.kind = .constructor :=
        ElementKind.member.inj (hkind.symm.trans hmember)
      rw [hname]
      exact MemberRef.name_of_constructor hr

/-- All names in a code base are plain if those in the declarations are: every
element is declared, or called what a use says. -/
theorem Depicts.plainNames (h : b.Depicts cs) (hwarranted : b.Warranted)
    (hcs : ∀ c ∈ cs, c.PlainNames) (he : e ∈ b.elements) : e.PlainNames := by
  obtain ⟨stubs, hes, hstubs⟩ := h.elements
  have hmem := he
  rw [hes, declaredTable_eq, List.mem_append, List.mem_append] at hmem
  rcases hmem with (hmem | hmem) | hmem
  · obtain ⟨i, c, hc, rfl⟩ := mem_typeElements.mp hmem
    have hplain := hcs c (List.mem_of_getElem? hc)
    exact ⟨fun _ => hplain.name, by rintro kind ⟨⟩, by rintro ⟨⟩, by rintro ⟨⟩⟩
  · obtain ⟨i, c, hc, hmem⟩ := mem_memberElements.mp hmem
    obtain ⟨k, hk, rfl⟩ := List.mem_mapIdx.mp hmem
    have hplain := hcs c (List.mem_of_getElem? hc)
    exact plainNames_ofMember (hplain.allMembers _ (List.getElem_mem hk)) _ _ _
  · obtain ⟨d, hd, hto⟩ := hwarranted e he (hstubs e hmem)
    obtain ⟨u, hu, hrecords⟩ := exists_rel_of_mem h.edges hd
    obtain ⟨c, hc, hu⟩ := List.mem_flatMap.mp hu
    exact plainNames_of_called ((hcs c hc).uses hu) (hrecords.called h.sound he hto)

/-! ### Members by full name -/

theorem Sound.exists_owner_of_isCodeUnit (hb : b.Sound) (he : e ∈ b.elements)
    (hcode : e.kind.isCodeUnit = true) :
    ∃ o ∈ b.elements, o.kind = .type ∧ e.owner = some o.id
      ∧ e.fullName = Name.ofCodeUnit o.fullName e.name e.parameters := by
  rcases hk : e.kind with - | kind
  · rw [hk] at hcode
    cases hcode
  · rw [hk] at hcode
    rcases MemberKind.eq_of_isCodeUnit hcode with rfl | rfl
    · exact hb.exists_owner he hk
    · exact hb.exists_owner he hk

section Plain

variable (hb : b.Sound) (hplain : ∀ e ∈ b.elements, e.PlainNames)

include hb hplain

/-- Methods and constructors, and nothing else, have a parenthesis in their full
names. -/
theorem mem_fullName_iff (he : e ∈ b.elements) :
    '(' ∈ e.fullName.toList ↔ e.kind.isCodeUnit = true := by
  constructor
  · intro hmem
    rcases hk : e.kind with - | (- | - | -)
    · exact absurd hmem ((hplain e he).type hk)
    · rfl
    · rfl
    · obtain ⟨o, ho, hot, -, hfull⟩ := hb.exists_owner he hk
      rw [hfull] at hmem
      exact absurd hmem (Name.not_mem_ofField ((hplain o ho).type hot)
        ((hplain e he).name _ hk).parenthesis)
  · intro hcode
    obtain ⟨o, -, -, -, hfull⟩ := hb.exists_owner_of_isCodeUnit he hcode
    rw [hfull, Name.toList_ofCodeUnit]
    exact List.mem_append_right _ List.mem_cons_self

/-- No two methods or constructors have one full name. -/
theorem eq_of_fullName_codeUnit (he : e ∈ b.elements) (he' : e' ∈ b.elements)
    (hcode : e.kind.isCodeUnit = true) (hcode' : e'.kind.isCodeUnit = true)
    (hname : e.fullName = e'.fullName) : e = e' := by
  obtain ⟨o, ho, hot, howner, hfull⟩ := hb.exists_owner_of_isCodeUnit he hcode
  obtain ⟨o', ho', hot', howner', hfull'⟩ := hb.exists_owner_of_isCodeUnit he' hcode'
  have hk := (hplain e he).kind_eq hcode
  have hk' := (hplain e' he').kind_eq hcode'
  have hnamed := (hplain e he).name _ hk
  have hnamed' := (hplain e' he').name _ hk'
  obtain ⟨hoo, hnames, hparameters⟩ := Name.ofCodeUnit_inj
    ((hplain o ho).type hot) ((hplain o' ho').type hot')
    ⟨hnamed.dot, hnamed.parenthesis⟩ ⟨hnamed'.dot, hnamed'.parenthesis⟩
    ((hplain e he).parameters hcode) ((hplain e' he').parameters hcode')
    (hfull.symm.trans (hname.trans hfull'))
  obtain rfl := hb.indexed.eq_of_fullName ho ho' hot hot' hoo
  refine hb.eq_of_agree he he' ?_ (howner.trans howner'.symm) ?_ hnames ?_
  · rw [hk]
    exact ElementKind.noConfusion
  · rw [hk, hk', hnames]
  · exact fun _ => hparameters

/-- No two fields have one full name. -/
theorem eq_of_fullName_field (he : e ∈ b.elements) (he' : e' ∈ b.elements)
    (hk : e.kind = .member .field) (hk' : e'.kind = .member .field)
    (hname : e.fullName = e'.fullName) : e = e' := by
  obtain ⟨o, ho, hot, howner, hfull⟩ := hb.exists_owner he hk
  obtain ⟨o', ho', hot', howner', hfull'⟩ := hb.exists_owner he' hk'
  have hsame : Name.ofField o.fullName e.name = Name.ofField o'.fullName e'.name :=
    hfull.symm.trans (hname.trans hfull')
  obtain ⟨hoo, hnames⟩ := Name.ofField_inj ((hplain e he).name _ hk).dot
    ((hplain e' he').name _ hk').dot hsame
  obtain rfl := hb.indexed.eq_of_fullName ho ho' hot hot' hoo
  refine hb.eq_of_agree he he' ?_ (howner.trans howner'.symm) (hk.trans hk'.symm) hnames ?_
  · rw [hk]
    exact ElementKind.noConfusion
  · intro hfield
    exact absurd hk hfield

/-- Searched for by its full name, a method or constructor is found: types and
fields have no such names, and other code units have others. -/
theorem find?_fullName (he : e ∈ b.elements) (hcode : e.kind.isCodeUnit = true) :
    b.find? e.fullName = some e := by
  rcases hfound : b.find? e.fullName with - | e'
  · have hno := List.find?_eq_none.mp hfound e he
    exact absurd (beq_self_eq_true e.fullName) hno
  · have he' : e' ∈ b.elements := List.mem_of_find?_eq_some hfound
    have hname : e'.fullName = e.fullName := by
      have htest := List.find?_some hfound
      exact beq_iff_eq.mp htest
    have hcode' : e'.kind.isCodeUnit = true := by
      rw [← mem_fullName_iff hb hplain he', hname, mem_fullName_iff hb hplain he]
      exact hcode
    rw [eq_of_fullName_codeUnit hb hplain he' he hcode' hcode hname]

end Plain

end CodeBase

namespace Blueprint

open CodeBase

variable {p : Blueprint} {b : CodeBase}

/-- **Full names identify code.**  In a code base built from declarations with
plain names, no two methods or constructors have one full name, and no two fields
have; stubs and implicit constructors count too.  A method or constructor is
found by its full name. -/
theorem fullNames_identify (h : p.build = .ok b) (hp : p.PlainNames) :
    (∀ u ∈ b.elements, ∀ u' ∈ b.elements, u.kind.isCodeUnit = true →
      u'.kind.isCodeUnit = true → u.fullName = u'.fullName → u = u')
    ∧ (∀ f ∈ b.elements, ∀ f' ∈ b.elements, f.kind = .member .field →
      f'.kind = .member .field → f.fullName = f'.fullName → f = f')
    ∧ ∀ u ∈ b.elements, u.kind.isCodeUnit = true → b.find? u.fullName = some u := by
  have hb := depicts_build h
  have hplain : ∀ e ∈ b.elements, e.PlainNames := fun _ he =>
    hb.plainNames (warranted_build h) hp.declarations he
  refine ⟨?_, ?_, ?_⟩
  · intro u hu u' hu' hcode hcode' hname
    exact eq_of_fullName_codeUnit hb.sound hplain hu hu' hcode hcode' hname
  · intro f hf f' hf' hk hk' hname
    exact eq_of_fullName_field hb.sound hplain hf hf' hk hk' hname
  · intro u hu hcode
    exact find?_fullName hb.sound hplain hu hcode

/-- A map and its key.  The key is a type of its own, which has the full name of
a field of the map, and both have methods called like it, some written down and
some only called. -/
def atlas : Blueprint where
  classes :=
    [{ name := "a.Map"
       members :=
        [{ head := .field "Key" "a.Map.Key[]" }, { head := .method "Key" },
          { head := .method "Key", parameters := ["int", "a.Map"]
            accesses :=
              [{ owner := "a.Map", target := .method "Key" ["int"] },
                { owner := "a.Map.Key", target := .method "Key" ["int"] },
                { owner := "a.Map.Key", target := .constructor ["a.Map"] }] }] },
      { name := "a.Map.Key", flavor := .interface }]
  lateMembers := [("a.Map.Key", { head := .method "Key", returns := some "a.Map" })]

/-- The first element with a field's full name may be a type; no such thing
happens to methods and constructors. -/
theorem atlas_fullNames_identify : ∃ b, atlas.build = .ok b ∧ atlas.PlainNames
    ∧ b.elements.map (·.fullName)
      = ["a.Map", "a.Map.Key", "a.Map.Key", "a.Map.Key()", "a.Map.Key(int, a.Map)",
        "a.Map.<init>()", "a.Map.Key.Key()", "a.Map.Key(int)", "a.Map.Key.Key(int)",
        "a.Map.Key.<init>(a.Map)"]
    ∧ ∀ u ∈ b.elements, u.kind.isCodeUnit = true → b.find? u.fullName = some u := by
  have hplain : atlas.PlainNames := by decide
  obtain ⟨-, -, hfound⟩ := fullNames_identify (p := atlas) rfl hplain
  exact ⟨_, rfl, hplain, by decide, hfound⟩

end Blueprint

end Conformance
