/-
Conformance/Proofs/Defects.lean

A build fails at the first defect, and only there.

The declarations are gone through three times: first the members given apart,
which must name a declared type, then the names of the types, then type by type
the members.  In the latter two an entry has a *flaw* if it is unnamed, or if its
key has come up before (`Flaw`).  What the loops have done until then plays no
part in the error, so each of them is followed to its first flaw by induction on
what comes before (`attachAll_eq_error`, `declareClasses_eq_error`,
`declareMembers_eq_error`, `declareAllMembers_eq_error`).

`Blueprint.Fails` puts the three in order: a defect counts only if all that is
looked at before is fine.  Declarations are valid or have such a defect
(`Blueprint.valid_or_fails`), and nothing after the three passes can fail, so that
the build gives this error and no other (`Blueprint.build_fails_at_first_defect`).
-/
import Conformance.FirstSeen
import Conformance.Proofs.Declared

namespace Conformance

/-! ### Flaws -/

/-- The entries are named, and their keys tell them apart. -/
structure InOrder {α κ : Type} (name : α → String) (key : α → κ) (as : List α) :
    Prop where
  named : ∀ a ∈ as, name a ≠ ""
  nodup : (as.map key).Nodup

/-- What is wrong with an entry, given the keys that were seen before it.  Of an
entry that is unnamed as well as repeated, the former is said. -/
inductive Flaw {α κ : Type} (name : α → String) (key : α → κ) (blank : BuildError)
    (double : α → BuildError) (seen : κ → Prop) (a : α) : BuildError → Prop where
  | unnamed (unnamed : name a = "") : Flaw name key blank double seen a blank
  | repeated (named : name a ≠ "") (again : seen (key a)) :
      Flaw name key blank double seen a (double a)

/-- What is wrong with the name of a type. -/
abbrev TypeFlaw : (String → Prop) → String → BuildError → Prop :=
  Flaw id id (.emptyName .type) .duplicateClass

/-- What is wrong with a member of a type. -/
abbrev MemberFlaw (owner : String) :
    (Bool × String → Prop) → MemberDecl → BuildError → Prop :=
  Flaw (·.name) (·.signature owner) (.emptyName .member)
    fun m => .duplicateMember (m.fullName owner)

section Flaws

variable {α κ : Type} {name : α → String} {key : α → κ} {blank : BuildError}
  {double : α → BuildError} {seen seen' : κ → Prop} {a : α} {e : BuildError}

theorem Flaw.congr (h : Flaw name key blank double seen a e)
    (hseen : ∀ k, seen k → seen' k) : Flaw name key blank double seen' a e := by
  cases h with
  | unnamed unnamed => exact .unnamed unnamed
  | repeated named again => exact .repeated named (hseen _ again)

/-- Entries are in order, or there is a first one with a flaw. -/
theorem inOrder_or_first (name : α → String) (key : α → κ) (blank : BuildError)
    (double : α → BuildError) (as : List α) :
    InOrder name key as ∨ ∃ before a after e, as = before ++ a :: after
      ∧ InOrder name key before
      ∧ Flaw name key blank double (· ∈ before.map key) a e := by
  have hcut := fine_or_first (InOrder name key)
    (fun before a => ∃ e, Flaw name key blank double (· ∈ before.map key) a e)
    ⟨List.forall_mem_nil _, List.nodup_nil⟩ ?_ as
  · rcases hcut with hfine | ⟨before, a, after, has, hbefore, e, he⟩
    · exact Or.inl hfine
    · exact Or.inr ⟨before, a, after, e, has, hbefore, he⟩
  · intro before a hbefore hnone
    have hnamed : name a ≠ "" := fun hblank => hnone ⟨_, .unnamed hblank⟩
    have hnew : key a ∉ before.map key := fun hagain =>
      hnone ⟨_, .repeated hnamed hagain⟩
    constructor
    · exact List.forall_mem_append.mpr
        ⟨hbefore.named, List.forall_mem_singleton.mpr hnamed⟩
    · rw [List.map_append, List.map_singleton, List.nodup_append]
      refine ⟨hbefore.nodup, by simp, ?_⟩
      intro k hk k' hk' heq
      rw [List.mem_singleton.mp hk'] at heq
      exact hnew (heq ▸ hk)

end Flaws

namespace CodeBase

/-! ### Members given apart -/

theorem attach_eq_error {owner : String} {m : MemberDecl} {cs : List ClassDecl}
    (howner : owner ∉ cs.map (·.name)) :
    attach owner m cs = .error (.unknownOwner owner m.name) := by
  induction cs with
  | nil => rfl
  | cons c cs ih =>
    rw [List.map_cons, List.mem_cons, not_or] at howner
    exact (if_neg (Ne.symm howner.1)).trans (bind_eq_error (ih howner.2) _)

/-- A member joins the first type of the name, if there is one. -/
theorem exists_attach {owner : String} {cs : List ClassDecl}
    (howner : owner ∈ cs.map (·.name)) (m : MemberDecl) :
    ∃ cs', attach owner m cs = .ok cs' := by
  induction cs with
  | nil => cases howner
  | cons c cs ih =>
    by_cases hc : c.name = owner
    · exact ⟨_, by rw [attach, if_pos hc]⟩
    · rw [List.map_cons, List.mem_cons] at howner
      obtain ⟨rest, hrest⟩ := ih (howner.resolve_left (Ne.symm hc))
      refine ⟨c :: rest, ?_⟩
      rw [attach, if_neg hc, hrest]
      rfl

/-- Names of types may be repeated here: that is found out later. -/
theorem exists_attachAll {cs : List ClassDecl} {late : List (String × MemberDecl)}
    (hlate : ∀ om ∈ late, om.1 ∈ cs.map (·.name)) :
    ∃ cs', attachAll cs late = .ok cs' := by
  induction late generalizing cs with
  | nil => exact ⟨cs, rfl⟩
  | cons om late ih =>
    obtain ⟨hom, hlate⟩ := List.forall_mem_cons.mp hlate
    obtain ⟨mid, hmid⟩ := exists_attach hom om.2
    rw [← (names_of_attach hmid).1] at hlate
    obtain ⟨cs', hcs'⟩ := ih hlate
    exact ⟨cs', bind_eq_ok.mpr ⟨mid, hmid, hcs'⟩⟩

theorem attachAll_eq_error {cs : List ClassDecl}
    {before after : List (String × MemberDecl)} {owner : String} {m : MemberDecl}
    (hbefore : ∀ om ∈ before, om.1 ∈ cs.map (·.name))
    (howner : owner ∉ cs.map (·.name)) :
    attachAll cs (before ++ (owner, m) :: after)
      = .error (.unknownOwner owner m.name) := by
  induction before generalizing cs with
  | nil =>
    exact bind_eq_error (attach_eq_error howner) _
  | cons om before ih =>
    obtain ⟨hom, hbefore⟩ := List.forall_mem_cons.mp hbefore
    obtain ⟨mid, hmid⟩ := exists_attach hom om.2
    have hnames := (names_of_attach hmid).1
    rw [List.cons_append, attachAll, hmid]
    exact ih (hnames.symm ▸ hbefore) (hnames.symm ▸ howner)

/-! ### Types -/

/-- Only the names of the types matter. -/
theorem declareClasses_eq_error {b : CodeBase} {cs : List ClassDecl}
    {before after : List String} {name : String} {e : BuildError}
    (hcs : cs.map (·.name) = before ++ name :: after)
    (hnamed : ∀ name ∈ before, name ≠ "")
    (hfresh : Fresh (fun name => (b.classId? name).isSome = true) before)
    (hflaw : TypeFlaw (fun name => name ∈ before ∨ (b.classId? name).isSome = true)
      name e) :
    b.declareClasses cs = .error e := by
  induction before generalizing b cs with
  | nil =>
    obtain ⟨c, cs, rfl, rfl, -⟩ := List.map_eq_cons_iff.mp hcs
    cases hflaw with
    | unnamed unnamed => exact if_pos unnamed
    | repeated named again =>
      exact (if_neg named).trans (if_pos (again.resolve_left List.not_mem_nil))
  | cons first before ih =>
    obtain ⟨c, cs, rfl, rfl, hrest⟩ := List.map_eq_cons_iff.mp hcs
    obtain ⟨hc, hnamed⟩ := List.forall_mem_cons.mp hnamed
    obtain ⟨hnew, hfresh⟩ := fresh_cons.mp hfresh
    refine (if_neg hc).trans ((if_neg hnew).trans (bind_eq_error ?_ _))
    refine ih hrest hnamed ?_ ?_
    · simpa only [isSome_classId?_addType] using hfresh
    · -- the first name has gone over to those that are known
      refine hflaw.congr fun name hname => ?_
      rw [isSome_classId?_addType, or_left_comm, ← or_assoc, ← List.mem_cons]
      exact hname

/-! ### Members -/

theorem declareMembers_eq_error {c : Placed ClassDecl} {b : CodeBase}
    {seen : List (Bool × String)} {before after : List MemberDecl} {m : MemberDecl}
    {e : BuildError} (hnamed : ∀ m ∈ before, m.name ≠ "")
    (hfresh : Fresh (· ∈ seen) (before.map (·.signature c.decl.name)))
    (hflaw : MemberFlaw c.decl.name
      (fun s => s ∈ before.map (·.signature c.decl.name) ∨ s ∈ seen) m e) :
    declareMembers c b seen (before ++ m :: after) = .error e := by
  induction before generalizing b seen with
  | nil =>
    cases hflaw with
    | unnamed unnamed => exact if_pos unnamed
    | repeated named again =>
      have hseen := List.contains_iff_mem.mpr (again.resolve_left List.not_mem_nil)
      exact (if_neg named).trans (if_pos hseen)
  | cons first before ih =>
    obtain ⟨hfirst, hnamed⟩ := List.forall_mem_cons.mp hnamed
    obtain ⟨hnew, hfresh⟩ := fresh_cons.mp hfresh
    rw [← List.contains_iff_mem] at hnew
    refine (if_neg hfirst).trans ((if_neg hnew).trans (bind_eq_error ?_ _))
    refine ih hnamed ?_ ?_
    · show Fresh (· ∈ first.signature c.decl.name :: seen) _
      simpa only [List.mem_cons] using hfresh
    · refine hflaw.congr fun s hs => ?_
      rw [List.mem_cons, or_left_comm, ← or_assoc, ← List.mem_cons]
      exact hs

theorem declareAllMembers_eq_error {b : CodeBase}
    {before after : List (Placed ClassDecl)} {c : Placed ClassDecl} {e : BuildError}
    (hbefore : ∀ c ∈ before, c.decl.MembersValid)
    (hc : ∀ b, declareMembers c b [] c.decl.members = .error e) :
    b.declareAllMembers (before ++ c :: after) = .error e := by
  induction before generalizing b with
  | nil =>
    exact bind_eq_error (hc b) _
  | cons first before ih =>
    obtain ⟨hfirst, hbefore⟩ := List.forall_mem_cons.mp hbefore
    have hfresh : Fresh (· ∈ []) (first.decl.members.map (·.signature first.decl.name)) :=
      ⟨hfirst.nodup, by simp⟩
    rw [List.cons_append, declareAllMembers,
      declareMembers_eq_ok_iff.mpr ⟨hfirst.named, hfresh, rfl⟩]
    exact bind_eq_error (ih hbefore) _

end CodeBase

/-! ### Defects, in the order in which they count -/

namespace Blueprint

open CodeBase

variable {p : Blueprint} {e : BuildError}

/-- The first defect of the declarations, and the error that reports it. -/
inductive Fails (p : Blueprint) : BuildError → Prop where
  /-- A member given apart names no declared type, and it is the first. -/
  | owner {before after : List (String × MemberDecl)} {owner : String}
      {m : MemberDecl} (late_eq : p.lateMembers = before ++ (owner, m) :: after)
      (known : ∀ om ∈ before, om.1 ∈ p.classes.map (·.name))
      (unknown : owner ∉ p.classes.map (·.name)) :
      Fails p (.unknownOwner owner m.name)
  /-- The name of a type has a flaw, and it is the first. -/
  | type {before after : List String} {name : String} {e : BuildError}
      (known : ∀ om ∈ p.lateMembers, om.1 ∈ p.classes.map (·.name))
      (names_eq : p.classes.map (·.name) = before ++ name :: after)
      (inOrder : InOrder id id before) (flaw : TypeFlaw (· ∈ before) name e) :
      Fails p e
  /-- A member has a flaw, the first one of the first type that has one. -/
  | member {before after : List ClassDecl} {c : ClassDecl}
      {membersBefore membersAfter : List MemberDecl} {m : MemberDecl} {e : BuildError}
      (known : ∀ om ∈ p.lateMembers, om.1 ∈ p.classes.map (·.name))
      (types : InOrder id id (p.classes.map (·.name)))
      (declarations_eq : p.declarations = before ++ c :: after)
      (valid : ∀ c' ∈ before, c'.MembersValid)
      (members_eq : c.members = membersBefore ++ m :: membersAfter)
      (inOrder : InOrder (·.name) (·.signature c.name) membersBefore)
      (flaw : MemberFlaw c.name (· ∈ membersBefore.map (·.signature c.name)) m e) :
      Fails p e

/-- At the start no name is taken. -/
theorem fresh_empty {names : List String} (h : InOrder id id names) :
    Fresh (fun name => (CodeBase.empty.classId? name).isSome = true) names := by
  refine ⟨?_, fun _ _ hsome => ?_⟩
  · rw [← List.map_id names]
    exact h.nodup
  · cases hsome

theorem Fails.build_eq (h : p.Fails e) : p.build = .error e := by
  unfold build
  cases h with
  | owner late_eq known unknown =>
    rw [late_eq, attachAll_eq_error known unknown]
    rfl
  | type known names_eq inOrder flaw =>
    -- which type a member joins is open as long as names may be repeated
    obtain ⟨cs, hcs⟩ := exists_attachAll known
    have hnames := (names_of_attachAll hcs).trans names_eq
    have hclasses := declareClasses_eq_error (e := e) hnames inOrder.named
      (fresh_empty inOrder) (flaw.congr fun _ => Or.inl)
    rw [hcs]
    exact bind_eq_error hclasses _
  | @member before after c _ _ _ _ known types declarations_eq valid members_eq
      inOrder flaw =>
    -- the first two passes succeed, and then what they do is plain
    have hfresh := fresh_empty types
    have hattach := (attachAll_eq_ok_iff hfresh.1).mpr ⟨known, rfl⟩
    have hclasses : CodeBase.empty.declareClasses p.declarations
        = .ok (CodeBase.empty.addClasses p.declarations, placedFrom 0 p.declarations) := by
      rw [← p.names_declarations] at hfresh types
      refine declareClasses_eq_ok_iff.mpr ⟨?_, hfresh, rfl⟩
      exact fun c hc => types.named c.name (List.mem_map_of_mem hc)
    have hmembers : ∀ i b, declareMembers ⟨i, c⟩ b [] c.members = .error e := by
      intro i b
      rw [members_eq]
      refine declareMembers_eq_error inOrder.named ⟨inOrder.nodup, by simp⟩ ?_
      exact flaw.congr fun _ => Or.inl
    have hall : (CodeBase.empty.addClasses p.declarations).declareAllMembers
        (placedFrom 0 p.declarations) = .error e := by
      rw [declarations_eq, placedFrom_append]
      exact declareAllMembers_eq_error (forall_placedFrom.mpr valid) (hmembers _)
    rw [hattach]
    show (CodeBase.empty.declareClasses p.declarations >>= _) = _
    rw [hclasses]
    exact bind_eq_error hall _

/-- Declarations describe a code base, or have a first defect. -/
theorem valid_or_fails (p : Blueprint) : p.Valid ∨ ∃ e, p.Fails e := by
  rcases forall_or_first (fun om => om.1 ∈ p.classes.map (·.name)) p.lateMembers with
    known | ⟨before, ⟨owner, m⟩, after, late_eq, known, unknown⟩
  · rcases inOrder_or_first id id (.emptyName .type) .duplicateClass
      (p.classes.map (·.name)) with types | ⟨_, _, _, e, names_eq, inOrder, flaw⟩
    · rcases forall_or_first ClassDecl.MembersValid p.declarations with
        members | ⟨before, c, after, declarations_eq, valid, invalid⟩
      · exact Or.inl ⟨known, fun c hc => types.named c.name (List.mem_map_of_mem hc),
          (fresh_empty types).1, members⟩
      · -- a type that is not valid has a member with a flaw
        rcases inOrder_or_first (·.name) (·.signature c.name) (.emptyName .member)
          (fun m => .duplicateMember (m.fullName c.name)) c.members with
          inOrder | ⟨_, _, _, e, members_eq, inOrder, flaw⟩
        · exact absurd ⟨inOrder.named, inOrder.nodup⟩ invalid
        · exact Or.inr ⟨e, .member known types declarations_eq valid members_eq
            inOrder flaw⟩
    · rw [List.map_id] at flaw
      exact Or.inr ⟨e, .type known names_eq inOrder flaw⟩
  · exact Or.inr ⟨_, .owner late_eq known unknown⟩

/-- **A build fails at the first defect.**  It gives an error if and only if the
declarations have a defect, and then the error for the first one.  A member given
apart whose type nobody declares comes before all else.  Then comes a type whose
name is empty or was taken by an earlier one.  Then, type by type and with the
members given apart, comes a member that has no name, or that has the full name
of an earlier member of its type where both are fields or neither is.  If there is
none of these, there is a code base, whatever else the declarations mention. -/
theorem build_fails_at_first_defect (p : Blueprint) :
    (∀ e, p.build = .error e ↔ p.Fails e)
      ∧ ((∃ b, p.build = .ok b) ↔ p.Valid) := by
  have hvalid : p.Valid → ∃ b, p.build = .ok b := fun h =>
    ⟨_, build_eq_ok_iff.mpr ⟨h, rfl⟩⟩
  refine ⟨fun e => ⟨fun hbuild => ?_, Fails.build_eq⟩, ?_, hvalid⟩
  · rcases p.valid_or_fails with hp | ⟨e', he'⟩
    · obtain ⟨b, hb⟩ := hvalid hp
      rw [hb] at hbuild
      cases hbuild
    · rw [he'.build_eq] at hbuild
      cases hbuild
      exact he'
  · rintro ⟨b, hb⟩
    exact (build_eq_ok_iff.mp hb).1

-- of three defects, the one that is found first is not the one written first
example : build
    { classes := [{ name := "", members := [{ head := .field "" "int" }] }]
      lateMembers := [("", { head := .method "rest" }),
        ("a.Ghost", { head := .method "haunt" })] }
    = .error (.unknownOwner "a.Ghost" "haunt") := rfl

end Blueprint

end Conformance
