/-
Conformance/Proofs/Persistence.lean

The rules on persisted types are decided by the declarations.

One rule asks for a public constructor without parameters, the other for
callbacks that return and take nothing.  Both look at declared members only, so
what they complain of can be read off the declarations (`Readings.lean`).  It
remains to say it in the words of the declarations themselves.

* The rule looks at the first constructor without parameters.  There is at most
  one, written or implicit, since two of them would answer to the same references
  (`pairwise_allMembers`); so looking at the first is asking for any
  (`any_find?_of_pairwise`).
* The implicit constructor is as visible as its type, and is no method.

What is only referred to is not looked at.  Declarations that differ in accesses
and supertypes alone make the same declared elements, and then the two rules come
to the same result, down to the ids in the events (`Rule.evaluate_congr`).
-/
import Conformance.Proofs.ElementTable
import Conformance.Proofs.Readings

namespace Conformance

/-! ### Rules that ask the same -/

namespace Rule

variable {r : Rule} {m m' : CodeModel}

theorem evaluate_congr (hscope : r.scope.select m' = r.scope.select m)
    (hselects : ∀ e, r.selects m' e = r.selects m e)
    (hcheck : ∀ e, r.condition.check m' e = r.condition.check m e) (config : Config) :
    r.evaluate m' config = r.evaluate m config := by
  rw [evaluate, evaluate, run_congr hscope hselects hcheck]

/-- However the rule is told whether it may select nothing, it has a verdict with
these complaints, or else it selects nothing, may not do so, and says that. -/
def Objects (r : Rule) (m : CodeModel) (messages : List String) : Prop :=
  ∀ (allow : Option Bool) (config : Config),
    (∃ v, { r with allowEmpty := allow }.evaluate m config = .ok v
      ∧ v.violations.map (·.message) = messages)
    ∨ (messages = [] ∧ { r with allowEmpty := allow }.mayBeEmpty config = false
      ∧ { r with allowEmpty := allow }.evaluate m config
        = .error (.emptySelection r.description r.scope.noun))

theorem Reads.objects {σ : Type} {subjects : List ClassDecl → List σ}
    {complaints : List ClassDecl → σ → List String}
    (hr : r.Reads subjects complaints) {b : CodeBase} {cs : List ClassDecl}
    (hb : b.Depicts cs) :
    r.Objects b.model ((subjects cs).flatMap (complaints cs)) := by
  intro allow config
  obtain ⟨events, hrun, hcomplaints⟩ := hr hb
  have hsame : { r with allowEmpty := allow }.run b.model = r.run b.model :=
    run_congr rfl (fun _ => rfl) fun _ => rfl
  rw [evaluate, hsame, hrun]
  by_cases hempty : ((subjects cs).length = 0
      && !{ r with allowEmpty := allow }.mayBeEmpty config) = true
  · -- no subject, hence no complaint either
    obtain ⟨hnone, hstrict⟩ := Bool.and_eq_true_iff.mp hempty
    rw [Bool.not_eq_true'] at hstrict
    refine Or.inr ⟨?_, hstrict, if_pos hempty⟩
    rw [List.length_eq_zero_iff.mp (of_decide_eq_true hnone)]
    rfl
  · exact Or.inl ⟨_, if_neg hempty, hcomplaints⟩

/-- A rule that may select nothing has a verdict in any case. -/
theorem Objects.of_mayBeEmpty {messages : List String} (h : r.Objects m messages)
    (allow : Option Bool) (config : Config)
    (hallowed : { r with allowEmpty := allow }.mayBeEmpty config = true) :
    ∃ v, { r with allowEmpty := allow }.evaluate m config = .ok v
      ∧ v.violations.map (·.message) = messages := by
  rcases h allow config with hverdict | ⟨-, hstrict, -⟩
  · exact hverdict
  · rw [hallowed] at hstrict
    cases hstrict

end Rule

/-! ### Constructors -/

/-- Where at most one entry has a property, asking the first that has it is
asking all. -/
theorem any_find?_of_pairwise {α : Type} {p q : α → Bool} {as : List α}
    (h : as.Pairwise fun a a' => ¬ (p a = true ∧ p a' = true)) :
    (as.find? p).any q = as.any fun a => p a && q a := by
  induction as with
  | nil => rfl
  | cons a as ih =>
    rw [List.pairwise_cons] at h
    by_cases ha : p a = true
    · have hrest : (as.any fun a' => p a' && q a') = false := by
        refine List.any_eq_false.mpr fun a' ha' hboth => ?_
        exact h.1 a' ha' ⟨ha, (Bool.and_eq_true_iff.mp hboth).1⟩
      rw [List.find?_cons_of_pos ha, List.any_cons, hrest, Option.any_some, ha,
        Bool.true_and, Bool.or_false]
    · rw [List.find?_cons_of_neg ha, ih h.2, List.any_cons,
        Bool.not_eq_true _ |>.mp ha, Bool.false_and, Bool.false_or]

namespace MemberDecl

/-- A type has room for one constructor without parameters. -/
theorem rivals_of_isEmptyConstructor {m m' : MemberDecl}
    (hm : m.isEmptyConstructor = true) (hm' : m'.isEmptyConstructor = true) :
    m.Rivals m' := by
  simp only [isEmptyConstructor, Bool.and_eq_true, beq_iff_eq,
    List.isEmpty_iff] at hm hm'
  refine ⟨hm.1.trans hm'.1.symm, ?_, Or.inr (hm.2.trans hm'.2.symm)⟩
  rw [name_of_constructor hm.1, name_of_constructor hm'.1]

end MemberDecl

namespace ClassDecl

/-- A constructor that is public and takes nothing is written down, or there is
one though none is: the type is a public class that declares no constructor. -/
def hasPublicEmptyConstructor (c : ClassDecl) : Bool :=
  c.members.any (fun m => m.isEmptyConstructor && m.visibility == .public)
    || (c.flavor == .plain && c.visibility == .public && !c.declaresConstructor)

/-- What the rule looks for among all members is there if the declaration says
so. -/
theorem any_find?_isEmptyConstructor {c : ClassDecl} (hc : c.MembersValid) :
    (c.allMembers.find? (·.isEmptyConstructor)).any (·.visibility == .public)
      = c.hasPublicEmptyConstructor := by
  have hone : c.allMembers.Pairwise fun m m' =>
      ¬ (m.isEmptyConstructor = true ∧ m'.isEmptyConstructor = true) :=
    (CodeBase.pairwise_allMembers hc).imp fun hrivals hboth =>
      hrivals (MemberDecl.rivals_of_isEmptyConstructor hboth.1 hboth.2)
  have himplicit : c.implicitConstructor?.toList.any
        (fun m => m.isEmptyConstructor && m.visibility == .public)
      = (c.flavor == .plain && c.visibility == .public && !c.declaresConstructor) := by
    unfold implicitConstructor?
    split <;> simp_all [MemberDecl.isEmptyConstructor, MemberDecl.kind]
  rw [any_find?_of_pairwise hone, allMembers, List.any_append, himplicit,
    hasPublicEmptyConstructor]

/-- The implicit constructor is no method. -/
theorem filter_method_allMembers (c : ClassDecl) :
    c.allMembers.filter (·.kind == .method) = c.members.filter (·.kind == .method) := by
  have himplicit : c.implicitConstructor?.toList.filter (·.kind == .method) = [] := by
    unfold implicitConstructor?
    split <;> rfl
  rw [allMembers, List.filter_append, himplicit, List.append_nil]

/-- The methods of a type that are written down and carry one of the markers. -/
def methodsUnder (markers : List String) (c : ClassDecl) : List MemberDecl :=
  c.members.filter fun m => m.kind == .method && markers.any m.isAnnotatedWith

end ClassDecl

/-! ### The rules -/

/-- The complaints about constructors, in the words of the declarations. -/
theorem flatMap_missingConstructor {cs : List ClassDecl}
    (hcs : ∀ c ∈ cs, c.MembersValid) (marker : String) :
    (cs.filter (·.isAnnotatedWith marker)).flatMap missingConstructor
      = (cs.filter fun c => c.isAnnotatedWith marker && !c.hasPublicEmptyConstructor).map
        fun c => "Class " ++ c.name ++ " has no public empty constructor" := by
  have hmissing : ∀ c ∈ cs.filter (·.isAnnotatedWith marker), missingConstructor c
      = if c.hasPublicEmptyConstructor then []
        else ["Class " ++ c.name ++ " has no public empty constructor"] := by
    intro c hc
    rw [missingConstructor,
      ClassDecl.any_find?_isEmptyConstructor (hcs c (List.mem_of_mem_filter hc))]
  rw [List.flatMap_congr hmissing, flatMap_unless, List.filter_filter]
  simp only [Bool.and_comm]

/-- The complaints about callbacks, type by type. -/
theorem flatMap_callbackFaults (cs : List ClassDecl) (markers : List String) :
    ((declaredMethods cs).filter fun m => markers.any m.2.isAnnotatedWith).flatMap
        callbackFaults
      = cs.flatMap fun c =>
        (c.methodsUnder markers).flatMap fun m => callbackFaults (c.name, m) := by
  rw [declaredMethods, List.filter_flatMap, List.flatMap_assoc]
  apply List.flatMap_congr
  intro c _
  rw [c.filter_method_allMembers, List.filter_map, List.flatMap_map,
    List.filter_filter, ClassDecl.methodsUnder]
  simp only [Function.comp_def, Bool.and_comm]

/-- On code bases with the same declared elements, the two rules come to the same
result. -/
theorem Catalog.evaluate_congr_of_mem_jpaRules {b b' : CodeBase}
    (hclasses : b'.model.classes = b.model.classes)
    (hmethods : b'.model.methods = b.model.methods)
    (hzero : ∀ i, b'.model.zeroArgConstructor? i = b.model.zeroArgConstructor? i)
    {r : Rule} (hr : r ∈ jpaRules) (allow : Option Bool) (config : Config) :
    { r with allowEmpty := allow }.evaluate b'.model config
      = { r with allowEmpty := allow }.evaluate b.model config := by
  simp only [jpaRules, List.mem_cons, List.not_mem_nil, or_false] at hr
  rcases hr with rfl | rfl
  · refine Rule.evaluate_congr ?_ ?_ ?_ config
    · exact hclasses
    · exact fun _ => rfl
    · intro e
      show Condition.checkPublicEmptyConstructor _ e
        = Condition.checkPublicEmptyConstructor _ e
      unfold Condition.checkPublicEmptyConstructor
      rw [hzero]
  · refine Rule.evaluate_congr ?_ ?_ ?_ config
    · exact hmethods
    · exact fun _ => rfl
    · exact fun _ => rfl

namespace Blueprint

open CodeBase

variable {p : Blueprint} {b : CodeBase}

/-- **The rules on persisted types read the declarations.**  Members given apart
count with their type.  Unless it selects nothing and may not do so, the first
rule complains, in order, of the entities that have no public constructor without
parameters, where a public class that declares no constructor has one.  The second
complains, type by type and member by member, of the methods that carry a marker
of a callback, first of what they return and then of what they take.  On
declarations with other accesses and supertypes, both rules come to the very same
result. -/
theorem jpaRules_read_declarations (h : p.build = .ok b) :
    Catalog.entitiesHavePublicEmptyConstructor.Objects b.model
      ((p.declarations.filter fun c =>
          c.isAnnotatedWith Catalog.entity && !c.hasPublicEmptyConstructor).map
        fun c => "Class " ++ c.name ++ " has no public empty constructor")
    ∧ Catalog.lifeCycleCallbacksCorrectlyDeclared.Objects b.model
      (p.declarations.flatMap fun c =>
        (c.methodsUnder Catalog.lifeCycleCallbacks).flatMap fun m =>
          callbackFaults (c.name, m))
    ∧ ∀ p' : Blueprint, p'.withoutReferences = p.withoutReferences →
      ∃ b', p'.build = .ok b' ∧ ∀ r ∈ Catalog.jpaRules, ∀ allow config,
        { r with allowEmpty := allow }.evaluate b'.model config
          = { r with allowEmpty := allow }.evaluate b.model config := by
  have hb := depicts_build h
  have hmembers := (build_eq_ok_iff.mp h).1.members
  refine ⟨?_, ?_, ?_⟩
  · rw [← flatMap_missingConstructor hmembers]
    exact Catalog.reads_entitiesHavePublicEmptyConstructor.objects hb
  · rw [← flatMap_callbackFaults]
    exact Catalog.reads_lifeCycleCallbacksCorrectlyDeclared.objects hb
  · intro p' hsame
    obtain ⟨b', hb', -, hclasses, hmethods, hmembersOf⟩ := exists_build_alike h hsame
    refine ⟨b', hb', fun r hr => ?_⟩
    exact Catalog.evaluate_congr_of_mem_jpaRules hclasses hmethods
      (fun i => (hmembersOf i).2) hr

/-- Three entities and a type that makes one of them, in a way nobody declares. -/
def ledger : Blueprint where
  classes :=
    [{ name := "a.Account", annotations := [{ typeName := Catalog.entity }]
       members :=
        [{ head := .constructor, parameters := ["int"] },
          { head := .method "audit", returns := some "int", parameters := ["int"]
            annotations := [{ typeName := "jakarta.persistence.PrePersist" }] }] },
      { name := "a.Holder", visibility := .private
        annotations := [{ typeName := Catalog.entity }] },
      { name := "a.Branch", annotations := [{ typeName := Catalog.entity }] },
      { name := "a.Teller"
        members :=
          [{ head := .method "open"
             accesses := [{ owner := "a.Account", target := .constructor [] }] }] }]
  lateMembers :=
    [("a.Branch",
      { head := .method "opened", returns := some "a.Date"
        annotations := [{ typeName := "jakarta.persistence.PostUpdate" }] })]

/-- The ledger without the access. -/
def closedLedger : Blueprint :=
  ledger.withoutReferences

/-- The constructor that is called and not declared makes no difference: an
account cannot be made from nothing. -/
theorem ledger_jpaRules : ∃ b b' v v', ledger.build = .ok b
    ∧ closedLedger.build = .ok b'
    ∧ closedLedger.withoutReferences = ledger.withoutReferences
    ∧ (b.elements.filter (·.isStub)).map (·.fullName)
      = ["jakarta.persistence.Entity", "jakarta.persistence.PrePersist",
        "jakarta.persistence.PostUpdate", "a.Date", "a.Account.<init>()"]
    ∧ (Catalog.entitiesHavePublicEmptyConstructor.allowingEmpty true).evaluate
        b.model {} = .ok v
    ∧ v.violations.map (·.message)
      = ["Class a.Account has no public empty constructor",
        "Class a.Holder has no public empty constructor"]
    ∧ Catalog.lifeCycleCallbacksCorrectlyDeclared.evaluate b.model
        { failOnEmpty := false } = .ok v'
    ∧ v'.violations.map (·.message)
      = ["Method a.Account.audit(int) is not a void but returns a int",
        "Method a.Account.audit(int) should be without any parameter but has 1 parameter(s)",
        "Method a.Branch.opened() is not a void but returns a a.Date"]
    ∧ (Catalog.entitiesHavePublicEmptyConstructor.allowingEmpty true).evaluate
        b'.model {} = .ok v := by
  have hsame : closedLedger.withoutReferences = ledger.withoutReferences := by rfl
  obtain ⟨hentities, hcallbacks, hothers⟩ := jpaRules_read_declarations (p := ledger) rfl
  obtain ⟨v, hv, hmessages⟩ := hentities.of_mayBeEmpty (some true) {} rfl
  obtain ⟨v', hv', hmessages'⟩ :=
    hcallbacks.of_mayBeEmpty none { failOnEmpty := false } rfl
  obtain ⟨b', hb', halike⟩ := hothers closedLedger hsame
  refine ⟨_, b', v, v', rfl, hb', hsame, by decide, hv, ?_, hv', ?_, ?_⟩
  · rw [hmessages]
    decide
  · rw [hmessages']
    decide
  · exact (halike _ List.mem_cons_self (some true) {}).trans hv

end Blueprint

end Conformance
