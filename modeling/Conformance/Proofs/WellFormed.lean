/-
Conformance/Proofs/WellFormed.lean

Every built code base is well formed.

Conditions follow ids without asking whether they lead anywhere.  `WellFormed`
says what they rely on: ids are places in the tables, members have a type that
exists, dependencies run from declared elements to existing ones, accesses run
from code to a member of the kind they say, and stubs tell nothing that no
declaration said.

All of it is read off what is known of built code bases already: the table is
sound, and each dependency records a use (`Depicts`).
-/
import Conformance.Proofs.Linked

namespace Conformance

namespace CodeBase

variable {b : CodeBase} {cs : List ClassDecl}

/-- A dependency joins elements that exist, and is what its kind says. -/
structure EdgeWellFormed (b : CodeBase) (d : Dependency) : Prop where
  /-- The type in which the dependency starts is declared. -/
  originClass : ∃ e, b.element? d.originClass = some e ∧ e.kind = .type
    ∧ e.isStub = false
  /-- It starts at that type, or at a declared member of it. -/
  origin : ∃ e, b.element? d.origin = some e ∧ (d.origin = d.originClass
    ∨ e.owner = some d.originClass ∧ e.isStub = false)
  /-- It ends in a type. -/
  targetClass : ∃ e, b.element? d.targetClass = some e ∧ e.kind = .type
  /-- An access is made by declared code, to a member of that type. -/
  access : ∀ kind, d.kind = .access kind →
    (∃ e, b.element? d.origin = some e ∧ e.isStub = false
      ∧ (e.kind = .member .method ∨ e.kind = .member .constructor))
    ∧ ∃ e, b.element? d.target = some e ∧ e.kind = .member kind
      ∧ e.owner = some d.targetClass
  /-- Everything else is a use of the type itself. -/
  typeUse : d.kind.isAccess = false → d.target = d.targetClass

/-- Ids lead where they should. -/
structure WellFormed (b : CodeBase) : Prop where
  element_id : ∀ i e, b.element? i = some e → e.id = i
  edge_id : ∀ i d, b.dependency? i = some d → d.id = i
  owner_none_iff : ∀ e ∈ b.elements, e.owner = none ↔ e.kind = .type
  owner_type : ∀ e ∈ b.elements, ∀ c, e.owner = some c →
    ∃ o, b.element? c = some o ∧ o.kind = .type
  edges : ∀ d ∈ b.dependencies, b.EdgeWellFormed d
  stubs : ∀ e ∈ b.elements, e.isStub = true → e.visibility = .unknown
    ∧ e.annotations = [] ∧ e.sourceFile = none ∧ e.returnType = none

/-! ### Elements -/

theorem Sound.owner_none_iff (h : b.Sound) {e : Element} (he : e ∈ b.elements) :
    e.owner = none ↔ e.kind = .type := by
  rcases hk : e.kind with - | kind
  · have hplace := h.orderly.placeable e he
    rw [Placeable, hk] at hplace
    exact iff_of_true hplace rfl
  · obtain ⟨o, -, -, howner, -⟩ := h.exists_owner he hk
    simp [howner]

theorem Sound.owner_type (h : b.Sound) {e : Element} (he : e ∈ b.elements)
    {c : ElementId} (hc : e.owner = some c) :
    ∃ o, b.element? c = some o ∧ o.kind = .type := by
  rcases hk : e.kind with - | kind
  · rw [(h.owner_none_iff he).mpr hk] at hc
    cases hc
  · obtain ⟨o, ho, hkind, howner, -⟩ := h.exists_owner he hk
    rw [hc] at howner
    obtain rfl := Option.some.inj howner
    exact ⟨o, h.indexed.element?_of_mem ho, hkind⟩

/-! ### Dependencies -/

theorem MemberKind.eq_of_isCodeUnit {kind : MemberKind}
    (h : kind.isCodeUnit = true) : kind = .method ∨ kind = .constructor := by
  cases kind
  · exact Or.inl rfl
  · exact Or.inr rfl
  · cases h

section Records

variable {c : ClassDecl} {u : Use} {d : Dependency} (hb : b.Sound)
  (h : b.Records u d)

include hb h

theorem Records.element?_originClass :
    b.element? d.originClass = some (.ofClass d.originClass u.owner) :=
  hb.indexed.element?_of_mem h.origin.1

theorem Records.origin_declared :
    ∃ e, b.element? d.origin = some e ∧ (d.origin = d.originClass
      ∨ e.owner = some d.originClass ∧ e.isStub = false) := by
  have horigin := h.origin.2
  rcases hm : u.member with - | m
  · rw [hm] at horigin
    exact ⟨_, horigin ▸ h.element?_originClass hb, Or.inl horigin⟩
  · rw [hm] at horigin
    exact ⟨_, hb.indexed.element?_of_mem horigin, Or.inr ⟨rfl, rfl⟩⟩

theorem Records.element?_targetClass :
    ∃ e, b.element? d.targetClass = some e ∧ e.kind = .type := by
  obtain ⟨e, he, hid, hkind, -⟩ := h.target.1
  exact ⟨e, hid ▸ hb.indexed.element?_of_mem he, hkind⟩

/-- What a member's reference is recorded as runs to a member it fits. -/
theorem Records.element?_target {r : MemberRef} (hr : u.target = some r) :
    ∃ e, b.element? d.target = some e ∧ e.kind = .member r.kind
      ∧ e.owner = some d.targetClass := by
  have htarget := h.target.2
  rw [hr] at htarget
  obtain ⟨e, he, hid, howner, href⟩ := htarget
  exact ⟨e, hid ▸ hb.indexed.element?_of_mem he, (refersTo_iff.mp href).1, howner⟩

theorem Records.origin_isCode {m : MemberDecl} (hm : u.member = some m)
    (hcode : m.kind.isCodeUnit = true) :
    ∃ e, b.element? d.origin = some e ∧ e.isStub = false
      ∧ (e.kind = .member .method ∨ e.kind = .member .constructor) := by
  have horigin := h.origin.2
  rw [hm] at horigin
  refine ⟨_, hb.indexed.element?_of_mem horigin, rfl, ?_⟩
  rcases MemberKind.eq_of_isCodeUnit hcode with hk | hk
  · exact Or.inl (congrArg ElementKind.member hk)
  · exact Or.inr (congrArg ElementKind.member hk)

/-- The record of a proper use is well formed. -/
theorem Records.edgeWellFormed (hu : u.Proper c) : b.EdgeWellFormed d where
  originClass := ⟨_, h.element?_originClass hb, rfl, rfl⟩
  origin := h.origin_declared hb
  targetClass := h.element?_targetClass hb
  access := by
    intro kind hkind
    rw [h.kind_eq] at hkind
    rcases hr : u.target with - | r
    · -- only members are accessed
      have hno := hu.of_type hr
      rw [hkind] at hno
      cases hno
    · obtain ⟨hukind, m, hm, hcode⟩ := hu.of_member r hr
      obtain rfl := DependencyKind.access.inj (hukind.symm.trans hkind)
      exact ⟨h.origin_isCode hb hm hcode, h.element?_target hb hr⟩
  typeUse := by
    intro hno
    have htarget := h.target.2
    rcases hr : u.target with - | r
    · rw [hr] at htarget
      exact htarget
    · -- a use of a member is an access
      rw [h.kind_eq, (hu.of_member r hr).1] at hno
      cases hno

end Records

/-- A code base that shows declarations is well formed. -/
theorem Depicts.wellFormed (h : b.Depicts cs) : b.WellFormed where
  element_id _ _ he := h.sound.indexed.element_id he
  edge_id _ _ hd := h.sound.indexed.edge_id hd
  owner_none_iff _ he := h.sound.owner_none_iff he
  owner_type _ he _ hc := h.sound.owner_type he hc
  edges d hd := by
    obtain ⟨u, hu, hrec⟩ := exists_rel_of_mem h.edges hd
    obtain ⟨c, -, huc⟩ := List.mem_flatMap.mp hu
    exact hrec.edgeWellFormed h.sound (ClassDecl.proper_uses huc)
  stubs e he hs := (h.sound.orderly.stubOnly e he).blank hs

end CodeBase

/-- **Built code bases are well formed.**  Whatever is declared, if it builds,
every id in the outcome leads where it should. -/
theorem Blueprint.wellFormed_build {p : Blueprint} {b : CodeBase}
    (h : p.build = .ok b) : b.WellFormed :=
  (depicts_build h).wellFormed

/-- Stubs, implicit constructors and accesses all occur in the shop. -/
theorem Blueprint.shop_wellFormed : ∃ b, shop.build = .ok b
    ∧ (b.elements.any (·.isStub)) = true ∧ b.WellFormed :=
  ⟨_, rfl, by decide, wellFormed_build (p := shop) rfl⟩

end Conformance
