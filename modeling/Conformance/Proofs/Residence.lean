/-
Conformance/Proofs/Residence.lean

Members reside where their types do.

A member keeps the id of its type, but its package is not looked up there: it is
read off the member's full name, in three cuts.  The name of a method or
constructor ends at its first parenthesis; what stands before the last dot is the
type's name, and what stands before the last dot of that is the package.

The first two cuts undo the making of the full name (`ownerOfCodeUnit_ofCodeUnit`,
`ownerOfField_ofField`), whatever the parameter types look like, since they come
after the first parenthesis.  For this the name of the type must not hold a
parenthesis, and that of the member neither a parenthesis nor a dot.  The third
cut gives the package of the type itself (`package_eq_iff`), so that every
question on packages has the same answer for both.
-/
import Conformance.Predicate
import Conformance.Proofs.Answers
import Conformance.Proofs.FullNames

namespace Conformance

/-! ### Cutting full names -/

namespace Name

/-- The package stands before the last dot of a type's name; a name without dots
is in the package without a name. -/
def ResidesIn (name package : String) : Prop :=
  ('.' ∉ name.toList ∧ package = "")
    ∨ ∃ last, '.' ∉ last.toList ∧ name = ofField package last

theorem ownerOfField_ofField {name : String} (hdot : '.' ∉ name.toList)
    (owner : String) : ownerOfField (ofField owner name) = owner := by
  rw [ownerOfField, toList_ofField, Text.beforeLast_append hdot, String.ofList_toList]

/-- Parameter types may hold anything: nothing after the first parenthesis
counts. -/
theorem ownerOfCodeUnit_ofCodeUnit {owner name : String} (howner : PlainType owner)
    (hdot : '.' ∉ name.toList) (hparenthesis : '(' ∉ name.toList)
    (parameters : List String) :
    ownerOfCodeUnit (ofCodeUnit owner name parameters) = owner := by
  rw [ownerOfCodeUnit, toList_ofCodeUnit,
    Text.beforeFirst_append (not_mem_ofField howner hparenthesis)]
  exact ownerOfField_ofField hdot owner

theorem package_of_not_mem {name : String} (hdot : '.' ∉ name.toList) :
    package name = "" := by
  rw [package, Text.beforeLast_of_not_mem hdot]

/-- The package of a name is the one that the name resides in. -/
theorem package_eq_iff {name pkg : String} :
    package name = pkg ↔ ResidesIn name pkg := by
  constructor
  · rintro rfl
    by_cases hdot : '.' ∈ name.toList
    · obtain ⟨front, last, hname, hlast⟩ := Text.exists_last_sep hdot
      refine Or.inr ⟨String.ofList last, ?_, String.toList_inj.mp ?_⟩
      · rwa [String.toList_ofList]
      · rw [toList_ofField, package, hname, Text.beforeLast_append hlast,
          String.toList_ofList, String.toList_ofList]
    · exact Or.inl ⟨hdot, package_of_not_mem hdot⟩
  · rintro (⟨hdot, rfl⟩ | ⟨last, hlast, rfl⟩)
    · exact package_of_not_mem hdot
    · -- a type is to its package what a field is to its type
      exact ownerOfField_ofField hlast pkg

end Name

/-- The name of its type is read back from a member's full name. -/
theorem Element.ownerName_of_fullName {e : Element} {kind : MemberKind} {owner : String}
    (hk : e.kind = .member kind)
    (hfull : e.fullName = kind.fullName owner e.name e.parameters)
    (howner : Name.PlainType owner) (hdot : '.' ∉ e.name.toList)
    (hparenthesis : '(' ∉ e.name.toList) : e.ownerName = owner := by
  rw [ownerName, hk, hfull]
  cases kind with
  | method => exact Name.ownerOfCodeUnit_ofCodeUnit howner hdot hparenthesis _
  | constructor => exact Name.ownerOfCodeUnit_ofCodeUnit howner hdot hparenthesis _
  | field => exact Name.ownerOfField_ofField hdot owner

/-! ### Packages of members -/

namespace Blueprint

variable {p : Blueprint} {b : CodeBase}

/-- **Members reside with their types.**  Every member of a built code base,
declared, implicit or stub, has a type that is found.  If the member's name holds
neither dot nor parenthesis and the type's name no parenthesis, then both are in
one package, the one before the last dot of the type's name, and patterns for
packages fit both or neither. -/
theorem members_reside_with_types (h : p.build = .ok b) {e : Element}
    {kind : MemberKind} (he : e ∈ b.elements) (hk : e.kind = .member kind)
    (hdot : '.' ∉ e.name.toList) (hparenthesis : '(' ∉ e.name.toList) :
    ∃ o, b.model.ownerOf e = .ok o ∧ o.kind = .type
      ∧ ('(' ∉ o.fullName.toList →
        e.package = o.package ∧ Name.ResidesIn o.fullName e.package
        ∧ ∀ pattern, (Predicate.inPackage pattern).holds b.model e = true
          ↔ (Predicate.inPackage pattern).holds b.model o = true) := by
  have hb := (depicts_build h).sound
  obtain ⟨o, ho, hot, howner, hfull⟩ := hb.exists_owner he hk
  refine ⟨o, hb.indexed.ownerOf_of_mem ho howner, hot, fun hplain => ?_⟩
  have hname : e.ownerName = o.fullName :=
    Element.ownerName_of_fullName hk hfull hplain hdot hparenthesis
  have hpackage : e.package = o.package := by
    rw [Element.package_of_type hot, Element.package, hname]
  refine ⟨hpackage, ?_, fun pattern => ?_⟩
  · rw [← Name.package_eq_iff, hpackage, Element.package_of_type hot]
  · rw [Predicate.holds, Predicate.holds, hpackage]

/-- The launch of a ship; its one parameter has a type with dots and parentheses
in its name. -/
def launch : AccessDecl where
  owner := "port.yard.Ship$Hull"
  target := .constructor ["port.Plan(port.Deck.Area)"]

/-- A harbour from which ships are launched that nobody declares. -/
def harbour : Blueprint where
  classes :=
    [{ name := "port.sea.Harbour"
       members :=
        [{ head := .field "pier" "port.Pier" },
          { head := .method "moor", parameters := ["(port.Ship) -> port.land.Crane", "int"]
            accesses := [launch, { owner := "Buoy", target := .field "light" }] },
          { head := .method "load.all" }] }]

/-- All members are in the packages of their types, that of the stub `launch` too,
except for the method with a dot in its name. -/
theorem harbour_members_reside : ∃ b, harbour.build = .ok b
    ∧ (b.elements.filter (·.kind != .type)).map (fun e => (e.name, e.package))
      = [("pier", "port.sea"), ("moor", "port.sea"), ("load.all", "port.sea.Harbour"),
        ("<init>", "port.sea"), ("<init>", "port.yard"), ("light", "")]
    ∧ ∃ e ∈ b.elements, e = .stubMember 8 7 launch
      ∧ ∃ o, b.model.ownerOf e = .ok o ∧ o.fullName = "port.yard.Ship$Hull"
        ∧ e.package = o.package ∧ Name.ResidesIn o.fullName e.package
        ∧ ∀ pattern, (Predicate.inPackage pattern).holds b.model e = true
          ↔ (Predicate.inPackage pattern).holds b.model o = true := by
  refine ⟨_, rfl, by decide +kernel, .stubMember 8 7 launch,
    List.mem_of_getElem? (i := 8) rfl, rfl, ?_⟩
  obtain ⟨o, howner, -, hresides⟩ := members_reside_with_types (p := harbour)
    (e := .stubMember 8 7 launch) rfl (List.mem_of_getElem? (i := 8) rfl) rfl (by decide)
    (by decide)
  -- the type of the stub is a stub as well
  obtain rfl : .stubClass 7 launch.owner = o := Except.ok.inj howner
  exact ⟨_, howner, rfl, hresides (by decide)⟩

end Blueprint

end Conformance
