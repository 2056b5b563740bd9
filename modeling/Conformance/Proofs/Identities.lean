/-
Conformance/Proofs/Identities.lean

Elements are told apart by what they are, and members are found by it.

A type is known by its full name.  A member is known by its type, its kind, its
name and, unless it is a field, its parameter types: `IsMeant` says so of the
table of elements alone.  Three things keep members apart while a code base is
built.  Written members with one full name are refused, an implicit constructor
is made only where no other is, and a stub is made only for a reference that no
member answers to.  These are three different looks at what is there already,
and each of them rules out that one reference means two members
(`Orderly.unique`).

So a search may stop at the first member that fits, and it does not matter that
declared members are looked at before stubs: what is found is what is meant
(`Sound.member?_eq_some_iff`).
-/
import Conformance.Proofs.WellFormed

namespace Conformance

namespace CodeBase

variable {b : CodeBase} {c : ElementId} {kind : ElementKind} {name : String}
  {parameters : List String} {e e' : Element}

/-! ### Types -/

/-- No two types have one full name. -/
theorem Indexed.eq_of_fullName (h : b.Indexed) (he : e ∈ b.elements)
    (he' : e' ∈ b.elements) (hk : e.kind = .type) (hk' : e'.kind = .type)
    (hname : e.fullName = e'.fullName) : e = e' := by
  have hid : e.id = e'.id :=
    h.isType_unique ⟨e, he, rfl, hk, hname⟩ ⟨e', he', rfl, hk', rfl⟩
  exact h.eq_of_id_eq he he' hid

/-! ### Members -/

/-- The element is the member that a type, a kind, a name and parameter types
mean together; the parameter types do not count for a field. -/
structure IsMeant (b : CodeBase) (c : ElementId) (kind : ElementKind)
    (name : String) (parameters : List String) (e : Element) : Prop where
  mem : e ∈ b.elements
  owner_eq : e.owner = some c
  kind_eq : e.kind = kind
  name_eq : e.name = name
  parameters_eq : kind ≠ .member .field → e.parameters = parameters

theorem isMeant_iff :
    b.IsMeant c kind name parameters e ↔ e ∈ b.elements ∧ e.owner = some c
      ∧ refersTo kind name parameters e = true := by
  rw [refersTo_iff]
  constructor
  · rintro ⟨he, howner, hkind, hname, hparameters⟩
    refine ⟨he, howner, hkind, hname, ?_⟩
    by_cases hfield : kind = .member .field
    · exact Or.inl hfield
    · exact Or.inr (hparameters hfield)
  · rintro ⟨he, howner, hkind, hname, hfield | hparameters⟩
    · exact ⟨he, howner, hkind, hname, fun hno => absurd hfield hno⟩
    · exact ⟨he, howner, hkind, hname, fun _ => hparameters⟩

/-- At most one member is meant. -/
theorem Sound.isMeant_unique (h : b.Sound)
    (he : b.IsMeant c kind name parameters e)
    (he' : b.IsMeant c kind name parameters e') : e = e' := by
  obtain ⟨hmem, howner, href⟩ := isMeant_iff.mp he
  obtain ⟨hmem', howner', href'⟩ := isMeant_iff.mp he'
  exact h.orderly.unique e hmem e' hmem' c howner howner'
    (alike_of_refersTo href href')

/-- The search for a member finds the one that is meant. -/
theorem Sound.member?_eq_some_iff (h : b.Sound) :
    b.member? c kind name parameters = some e
      ↔ b.IsMeant c kind name parameters e := by
  constructor
  · intro hfound
    exact isMeant_iff.mpr (h.indexed.member?_eq_some hfound)
  · intro he
    rcases hfound : b.member? c kind name parameters with - | e'
    · -- a search without an answer has looked at the member too
      obtain ⟨hmem, howner, href⟩ := isMeant_iff.mp he
      rw [h.indexed.member?_eq_none hfound hmem howner] at href
      cases href
    · have he' := isMeant_iff.mpr (h.indexed.member?_eq_some hfound)
      rw [h.isMeant_unique he he']

theorem Sound.member?_eq_none_iff (h : b.Sound) :
    b.member? c kind name parameters = none
      ↔ ∀ e, ¬ b.IsMeant c kind name parameters e := by
  simp only [Option.eq_none_iff_forall_ne_some, ne_eq, h.member?_eq_some_iff]

/-- A member is meant by what it is. -/
theorem Sound.exists_isMeant (h : b.Sound) (he : e ∈ b.elements)
    (hk : e.kind ≠ .type) :
    ∃ c, e.owner = some c ∧ b.IsMeant c e.kind e.name e.parameters e := by
  rcases howner : e.owner with - | c
  · exact absurd ((h.owner_none_iff he).mp howner) hk
  · exact ⟨c, rfl, he, howner, rfl, rfl, fun _ => rfl⟩

/-- Members that agree in all that counts are one. -/
theorem Sound.eq_of_agree (h : b.Sound) (he : e ∈ b.elements)
    (he' : e' ∈ b.elements) (hk : e.kind ≠ .type) (howner : e.owner = e'.owner)
    (hkind : e.kind = e'.kind) (hname : e.name = e'.name)
    (hparameters : e.kind ≠ .member .field → e.parameters = e'.parameters) :
    e = e' := by
  obtain ⟨c, hc, hmeant⟩ := h.exists_isMeant he hk
  refine h.isMeant_unique hmeant ⟨he', ?_, hkind.symm, hname.symm, ?_⟩
  · rw [← howner]
    exact hc
  · intro hfield
    exact (hparameters hfield).symm

end CodeBase

namespace Blueprint

variable {p : Blueprint} {b : CodeBase}

/-- **Elements are what they are called.**  In a built code base, no two types
have one full name, and no two members have one type, kind and name and, if they
hold code, one list of parameter types; stubs and implicit constructors count
too.  So the search for a member by these four gives the member that has them,
and nothing only if there is none; the parameter types do not count in the
search for a field.  In particular every member is found by what it is. -/
theorem members_found_by_identity (h : p.build = .ok b) :
    (∀ e ∈ b.elements, ∀ e' ∈ b.elements, e.kind = .type → e'.kind = .type →
      e.fullName = e'.fullName → e = e')
    ∧ (∀ e ∈ b.elements, ∀ e' ∈ b.elements, e.kind ≠ .type →
      e.owner = e'.owner → e.kind = e'.kind → e.name = e'.name →
      (e.kind ≠ .member .field → e.parameters = e'.parameters) → e = e')
    ∧ (∀ c kind name parameters e, b.member? c kind name parameters = some e
      ↔ b.IsMeant c kind name parameters e)
    ∧ (∀ c kind name parameters, b.member? c kind name parameters = none
      ↔ ∀ e, ¬ b.IsMeant c kind name parameters e)
    ∧ ∀ e ∈ b.elements, e.kind ≠ .type →
      ∃ c, e.owner = some c ∧ b.member? c e.kind e.name e.parameters = some e := by
  have hb := (depicts_build h).sound
  refine ⟨?_, ?_, ?_, ?_, ?_⟩
  · intro e he e' he' hk hk' hname
    exact hb.indexed.eq_of_fullName he he' hk hk' hname
  · intro e he e' he' hk howner hkind hname hparameters
    exact hb.eq_of_agree he he' hk howner hkind hname hparameters
  · intro c kind name parameters e
    exact hb.member?_eq_some_iff
  · intro c kind name parameters
    exact hb.member?_eq_none_iff
  · intro e he hk
    obtain ⟨c, hc, hmeant⟩ := hb.exists_isMeant he hk
    exact ⟨c, hc, hb.member?_eq_some_iff.mpr hmeant⟩

/-- A desk on which everything is called `open`: a field, two methods that are
written down, and two that are only called, one of them on a lamp that nobody
declares. -/
def desk : Blueprint where
  classes :=
    [{ name := "a.Desk"
       members :=
        [{ head := .method "open" }, { head := .field "open" "a.Drawer" },
          { head := .method "open", parameters := ["int"]
            accesses :=
              [{ owner := "a.Desk", target := .method "open" ["long"] },
                { owner := "a.Desk", target := .field "open" },
                { owner := "a.Desk", target := .constructor [] },
                { owner := "a.Lamp", target := .method "open" [] }] }] }]

/-- The field is found whatever is given as its parameter types, and each of the
four methods only by its own. -/
theorem desk_members_found : ∃ b, desk.build = .ok b
    ∧ (b.elements.filter (·.name == "open")).map (·.fullName)
      = ["a.Desk.open()", "a.Desk.open", "a.Desk.open(int)", "a.Desk.open(long)",
        "a.Lamp.open()"]
    ∧ (b.member? 0 (.member .field) "open" ["int"]).map (·.id) = some 2
    ∧ b.member? 0 (.member .method) "open" ["int", "int"] = none
    ∧ ∀ e ∈ b.elements, e.kind ≠ .type →
      ∃ c, e.owner = some c ∧ b.member? c e.kind e.name e.parameters = some e := by
  obtain ⟨-, -, -, -, hfound⟩ := members_found_by_identity (p := desk) rfl
  exact ⟨_, rfl, by decide, by decide, by decide, hfound⟩

end Blueprint

end Conformance
