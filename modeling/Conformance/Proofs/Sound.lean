/-
Conformance/Proofs/Sound.lean

The elements of a code base fit together.

`Orderly` speaks of the table of elements alone: types have no owner, every
member has one that is a type of the table, a member's full name is its owner's
with its own name and parameter types, a stub knows no more than the mention it
was made for, and no two members of a type answer to the same reference.
`Sound` adds that the indexes agree with the table (`Indexed`).

A new element keeps the code base sound if it fits in: a type needs a new name,
a member needs an owner and must not answer to a reference that another member
of its owner answers to.
-/
import Conformance.CodeBase.Build
import Conformance.Proofs.Indexed

namespace Conformance

/-! ### Full names of members -/

/-- The full name of a member, from that of its type. -/
def MemberKind.fullName (owner name : String) (parameters : List String) :
    MemberKind → String
  | .field => Name.ofField owner name
  | _ => Name.ofCodeUnit owner name parameters

theorem MemberDecl.fullName_eq (owner : String) (m : MemberDecl) :
    m.fullName owner = m.kind.fullName owner m.name m.parameters := by
  rcases m with ⟨- | - | -⟩ <;> rfl

theorem MemberRef.fullName_eq (owner : String) (r : MemberRef) :
    r.fullName owner = r.kind.fullName owner r.name r.parameters := by
  cases r <;> rfl

theorem MemberDecl.name_of_constructor {m : MemberDecl}
    (h : m.kind = .constructor) : m.name = Name.constructor := by
  unfold kind at h
  split at h
  · cases h
  · rename_i hhead
    rw [name, hhead]
  · cases h

theorem MemberRef.name_of_constructor {r : MemberRef}
    (h : r.kind = .constructor) : r.name = Name.constructor := by
  cases r with
  | constructor parameters => rfl
  | method name parameters => cases h
  | field name => cases h

/-- A field's full name does not show its parameters. -/
theorem MemberKind.fullName_congr {kind : MemberKind} {owner name : String}
    {ps qs : List String} (h : kind = .field ∨ ps = qs) :
    kind.fullName owner name ps = kind.fullName owner name qs := by
  rcases h with rfl | rfl <;> rfl

namespace CodeBase

variable {b : CodeBase} {e : Element} {es : List Element}

/-! ### Orderly tables -/

/-- An element has its place in the table: a type stands alone, a member
belongs to a type and is named after it. -/
def Placeable (es : List Element) (e : Element) : Prop :=
  match e.kind with
  | .type => e.owner = none
  | .member kind => ∃ o ∈ es, o.kind = .type ∧ e.owner = some o.id
      ∧ e.fullName = kind.fullName o.fullName e.name e.parameters

/-- A stub is made from the name of a type or from an access, and from nothing
else. -/
def StubOnly (e : Element) : Prop :=
  e.isStub = true → (∃ name, e = .stubClass e.id name)
    ∨ ∃ c a, e = .stubMember e.id c a

/-- Both elements answer to the same references to members. -/
def Alike (e e' : Element) : Prop :=
  refersTo e.kind e.name e.parameters e' = true

/-- The elements of the table fit together. -/
structure Orderly (es : List Element) : Prop where
  placeable : ∀ e ∈ es, Placeable es e
  stubOnly : ∀ e ∈ es, StubOnly e
  unique : ∀ e ∈ es, ∀ e' ∈ es, ∀ c, e.owner = some c → e'.owner = some c →
    Alike e e' → e = e'

theorem StubOnly.blank {e : Element} (h : StubOnly e) (hs : e.isStub = true) :
    e.visibility = .unknown ∧ e.annotations = [] ∧ e.sourceFile = none
      ∧ e.returnType = none := by
  rcases h hs with ⟨name, heq⟩ | ⟨c, a, heq⟩
  · rw [heq]
    exact ⟨rfl, rfl, rfl, rfl⟩
  · rw [heq]
    exact ⟨rfl, rfl, rfl, rfl⟩

theorem Alike.symm {e e' : Element} (h : Alike e e') : Alike e' e := by
  obtain ⟨hk, hn, hp⟩ := refersTo_iff.mp h
  refine refersTo_iff.mpr ⟨hk.symm, hn.symm, ?_⟩
  rcases hp with hf | hp
  · exact Or.inl (hk.trans hf)
  · exact Or.inr hp.symm

theorem Placeable.append (h : Placeable es e) (added : List Element) :
    Placeable (es ++ added) e := by
  unfold Placeable at h ⊢
  split
  · rename_i hk
    rw [hk] at h
    exact h
  · rename_i kind hk
    rw [hk] at h
    obtain ⟨o, ho, hrest⟩ := h
    exact ⟨o, List.mem_append_left _ ho, hrest⟩

/-- An element that fits in, and is unlike the members of its owner, may be
added. -/
theorem Orderly.append (h : Orderly es) (hplace : Placeable es e)
    (hstub : StubOnly e)
    (hfresh : ∀ e' ∈ es, ∀ c, e.owner = some c → e'.owner = some c →
      ¬ Alike e e') : Orderly (es ++ [e]) where
  placeable := by
    intro e' he'
    rw [List.mem_append, List.mem_singleton] at he'
    rcases he' with he' | rfl
    · exact (h.placeable e' he').append [e]
    · exact hplace.append _
  stubOnly := by
    intro e' he'
    rw [List.mem_append, List.mem_singleton] at he'
    rcases he' with he' | rfl
    · exact h.stubOnly e' he'
    · exact hstub
  unique := by
    intro e₁ h₁ e₂ h₂ c hc₁ hc₂ halike
    rw [List.mem_append, List.mem_singleton] at h₁ h₂
    rcases h₁ with h₁ | rfl <;> rcases h₂ with h₂ | rfl
    · exact h.unique e₁ h₁ e₂ h₂ c hc₁ hc₂ halike
    · exact absurd halike.symm (hfresh e₁ h₁ c hc₂ hc₁)
    · exact absurd halike (hfresh e₂ h₂ c hc₁ hc₂)
    · rfl

/-! ### Sound code bases -/

/-- The elements fit together, and the indexes agree with the tables. -/
structure Sound (b : CodeBase) : Prop where
  indexed : b.Indexed
  orderly : Orderly b.elements

theorem Sound.empty : Sound CodeBase.empty where
  indexed := .empty
  orderly := by
    constructor <;> simp [CodeBase.empty, elements]

/-- The type of a member, and the full name that the member has by it. -/
theorem Sound.exists_owner (h : b.Sound) {kind : MemberKind} (he : e ∈ b.elements)
    (hk : e.kind = .member kind) :
    ∃ o ∈ b.elements, o.kind = .type ∧ e.owner = some o.id
      ∧ e.fullName = kind.fullName o.fullName e.name e.parameters := by
  have hplace := h.orderly.placeable e he
  rw [Placeable, hk] at hplace
  exact hplace

/-- A type with a new name may be added. -/
theorem Sound.addType (h : b.Sound) (hid : e.id = b.nextId)
    (hkind : e.kind = .type) (howner : e.owner = none) (hstub : StubOnly e)
    (hname : b.classId? e.fullName = none) : (b.addType e).Sound where
  indexed := h.indexed.addType hid hkind howner hname
  orderly := by
    rw [elements_addType]
    refine h.orderly.append ?_ hstub ?_
    · simp only [Placeable, hkind, howner]
    · -- a type belongs to nothing, so there is nothing to be unlike
      intro e' _ c hc
      rw [howner] at hc
      cases hc

/-- A member that is unlike the others of its type may be added. -/
theorem Sound.addMember (h : b.Sound) {o : Element} {kind : MemberKind}
    (ho : o ∈ b.elements) (hot : o.kind = .type) (hid : e.id = b.nextId)
    (hkind : e.kind = .member kind) (howner : e.owner = some o.id)
    (hname : e.fullName = kind.fullName o.fullName e.name e.parameters)
    (hstub : StubOnly e)
    (hfresh : ∀ e' ∈ b.elements, e'.owner = some o.id → ¬ Alike e e') :
    (b.addMember o.id e).Sound where
  indexed := by
    refine h.indexed.addMember hid ?_ howner (h.indexed.id_lt ho)
    rw [hkind]
    exact ElementKind.noConfusion
  orderly := by
    rw [elements_addMember]
    refine h.orderly.append ?_ hstub ?_
    · simp only [Placeable, hkind]
      exact ⟨o, ho, hot, howner, hname⟩
    · intro e' he' c hc hc'
      rw [howner] at hc
      rw [← hc] at hc'
      exact hfresh e' he' hc'

/-- A dependency between elements that exist may be added. -/
theorem Sound.addEdge (h : b.Sound) {kind : DependencyKind}
    {o oc t tc : ElementId} {line : Option Nat} (hoc : oc < b.nextId)
    (htc : tc < b.nextId) : (b.addEdge kind o oc t tc line).Sound where
  indexed := h.indexed.addEdge hoc htc
  orderly := by
    rw [elements_addEdge]
    exact h.orderly

/-! ### Elements are known by what they are called -/

/-- The member of type `c` that a reference means, in terms of the table. -/
def IsMember (b : CodeBase) (c : ElementId) (r : MemberRef) (i : ElementId) :
    Prop :=
  ∃ e ∈ b.elements, e.id = i ∧ e.owner = some c
    ∧ refersTo (.member r.kind) r.name r.parameters e = true

theorem Indexed.isType_unique (h : b.Indexed) {name : String}
    {i j : ElementId} (hi : b.IsType name i) (hj : b.IsType name j) : i = j := by
  have hi' := h.classId?_iff.mpr hi
  rw [h.classId?_iff.mpr hj] at hi'
  exact (Option.some.inj hi').symm

theorem Indexed.eq_of_id_eq (h : b.Indexed) {e e' : Element}
    (he : e ∈ b.elements) (he' : e' ∈ b.elements) (hid : e.id = e'.id) :
    e = e' := by
  have hfound := h.element?_of_mem he
  rw [hid, h.element?_of_mem he'] at hfound
  exact (Option.some.inj hfound).symm

/-- What answers to one reference is alike. -/
theorem alike_of_refersTo {e e' : Element} {kind : ElementKind}
    {name : String} {parameters : List String}
    (h : refersTo kind name parameters e = true)
    (h' : refersTo kind name parameters e' = true) : Alike e e' := by
  obtain ⟨rfl, rfl, hp⟩ := refersTo_iff.mp h
  obtain ⟨hk', hn', hp'⟩ := refersTo_iff.mp h'
  refine refersTo_iff.mpr ⟨hk', hn', ?_⟩
  rcases hp with hf | rfl
  · exact Or.inl hf
  · exact hp'

theorem Sound.isMember_unique (h : b.Sound) {c : ElementId} {r : MemberRef}
    {i j : ElementId} (hi : b.IsMember c r i) (hj : b.IsMember c r j) :
    i = j := by
  obtain ⟨e, he, rfl, hc, hr⟩ := hi
  obtain ⟨e', he', rfl, hc', hr'⟩ := hj
  rw [h.orderly.unique e he e' he' c hc hc' (alike_of_refersTo hr hr')]

end CodeBase

end Conformance
