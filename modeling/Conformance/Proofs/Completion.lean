/-
Conformance/Proofs/Completion.lean

On a built code base, built-in conditions come to an end.

A check breaks off where the model contradicts itself: a dependency names an
element that the model lacks, or an access is made by something that holds no
code or belongs to no type.  A dependency *resolves* if neither is the case, and
a model is consistent if whatever conditions follow resolves.  Such dependencies
have no fault of any kind, so that the checks which follow them end
(`ends_checkDependOn` and others); compound conditions end if their parts do
(`Condition.BuiltIn.ends_check`).  Checks of a rule's author are left out: these
may break off as they like.

Built code bases are consistent since they are well formed
(`Depicts.consistent_model`).  Of the three results a rule can have, two are
left for them (`Blueprint.evaluate_completes`).
-/
import Conformance.Proofs.Faults
import Conformance.Proofs.Scans
import Conformance.Proofs.WellFormed

namespace Conformance

/-! ### Consistent models -/

namespace CodeModel

variable {m : CodeModel}

/-- What a dependency names is in the model. -/
structure Resolves (m : CodeModel) (d : Dependency) : Prop where
  origin : ∃ e, m.element? d.origin = some e
  originClass : ∃ e, m.element? d.originClass = some e
  target : ∃ e, m.element? d.target = some e
  targetClass : ∃ e, m.element? d.targetClass = some e
  /-- An access is made by code, which belongs to a type. -/
  caller : d.kind.isAccess = true → ∃ e o, m.element? d.origin = some e
    ∧ e.kind.isCodeUnit = true ∧ e.owner.bind m.element? = some o

/-- Whatever dependencies the model answers with resolve. -/
structure Consistent (m : CodeModel) : Prop where
  leaving : ∀ c, ∀ d ∈ m.dependenciesFrom c, m.Resolves d
  entering : ∀ c, ∀ d ∈ m.dependenciesInto c, m.Resolves d
  calls : ∀ c, ∀ d ∈ m.callsFrom c ++ m.callsTo c,
    m.Resolves d ∧ d.kind.isAccess = true

theorem Resolves.not_targetFault {d : Dependency} (h : m.Resolves d)
    (that : Predicate) (fault : Inconsistency) : ¬ m.TargetFault that d fault := by
  obtain ⟨⟨origin, horigin⟩, ⟨originClass, horiginClass⟩, ⟨target, htarget⟩,
    ⟨targetClass, htargetClass⟩, -⟩ := h
  intro hfault
  cases hfault with
  | targetClass missing => simp [missing] at htargetClass
  | origin _ missing => simp [missing] at horigin
  | originClass _ _ missing => simp [missing] at horiginClass
  | target _ _ _ missing => simp [missing] at htarget

theorem Resolves.not_userFault {d : Dependency} (h : m.Resolves d)
    (fault : Inconsistency) : ¬ m.UserFault d fault := by
  obtain ⟨originClass, horiginClass⟩ := h.originClass
  rintro ⟨missing⟩
  rw [missing] at horiginClass
  cases horiginClass

theorem Resolves.not_callFault {d : Dependency} (h : m.Resolves d)
    (haccess : d.kind.isAccess = true) (fault : Inconsistency) :
    ¬ m.CallFault d fault := by
  obtain ⟨origin, originClass, horigin, hcode, hclass⟩ := h.caller haccess
  intro hfault
  cases hfault with
  | origin missing => simp [missing] at horigin
  | code origin_eq none =>
    obtain rfl := Option.some.inj (origin_eq.symm.trans horigin)
    simp [none] at hcode
  | owner origin_eq _ missing =>
    obtain rfl := Option.some.inj (origin_eq.symm.trans horigin)
    simp [missing] at hclass

end CodeModel

/-! ### Conditions on consistent models -/

namespace Condition

open Check CodeModel

variable {m : CodeModel}

/-- The condition is made of built-in ones, with no check of the rule's author
anywhere in it. -/
inductive BuiltIn : Condition → Prop where
  | dependOn (that : Predicate) : BuiltIn (.dependOn that)
  | publicEmptyConstructor : BuiltIn .publicEmptyConstructor
  | voidWithoutParameters : BuiltIn .voidWithoutParameters
  | accessedOnlyBy (marker : String) : BuiltIn (.accessedOnlyBy marker)
  | accessedOnlyByAny (markers : List String) : BuiltIn (.accessedOnlyByAny markers)
  | accessedUnder (marker : String) : BuiltIn (.accessedUnder marker)
  | and {c d : Condition} (hc : BuiltIn c) (hd : BuiltIn d) : BuiltIn (.and c d)
  | or {c d : Condition} (hc : BuiltIn c) (hd : BuiltIn d) : BuiltIn (.or c d)
  | never {c : Condition} (hc : BuiltIn c) : BuiltIn (.never c)
  | describedAs (description : String) {c : Condition} (hc : BuiltIn c) :
      BuiltIn (.describedAs description c)

/-- On a consistent model, the check of a built-in condition ends on every
element. -/
theorem BuiltIn.ends_check {c : Condition} (hc : c.BuiltIn) (hm : m.Consistent)
    (e : Element) : Ends (c.check m e) := by
  induction hc with
  | dependOn that =>
    exact ends_checkDependOn fun d hd => (hm.leaving e.id d hd).not_targetFault that
  | publicEmptyConstructor => exact ends_unless _ _ _
  | voidWithoutParameters =>
    exact (ends_unless _ _ _).bind fun _ => ends_unless _ _ _
  | accessedOnlyBy marker =>
    exact ends_checkUsers _ _ fun d hd => (hm.entering e.id d hd).not_userFault
  | accessedOnlyByAny markers =>
    exact ends_checkUsers _ _ fun d hd => (hm.entering e.id d hd).not_userFault
  | accessedUnder marker =>
    refine ends_checkCalls marker e fun d hd => ?_
    obtain ⟨hresolves, haccess⟩ := hm.calls e.id d hd
    exact hresolves.not_callFault haccess
  | and _ _ ihc ihd => exact ihc.bind fun _ => ihd
  | or _ _ ihc ihd =>
    refine ihc.aside.bind fun left => ?_
    exact ihd.aside.bind fun right => ends_emit _
  | never _ ihc => exact ihc.aside.bind fun events => ends_emit _
  | describedAs _ _ ihc => exact ihc

/-- A check that ends meets no contradiction. -/
theorem fault_of_ends {c : Condition} {e : Element} (h : Ends (c.check m e)) :
    (c.findings m e).fault = none := by
  obtain ⟨u, found, hfound⟩ := h
  rw [findings, hfound []]

end Condition

/-- Whatever the selection, also if none of its elements should meet the
condition, the rule's condition is built in. -/
theorem Selection.builtIn_should {c : Condition} (hc : c.BuiltIn) (s : Selection) :
    (s.should c).condition.BuiltIn := by
  show Condition.BuiltIn (if s.negated then .never c else c)
  split
  · exact .never hc
  · exact hc

/-! ### Built code bases are consistent -/

theorem DependencyKind.exists_of_isAccess {k : DependencyKind}
    (h : k.isAccess = true) : ∃ kind, k = .access kind := by
  cases k with
  | access kind => exact ⟨kind, rfl⟩
  | _ => cases h

namespace CodeBase

variable {b : CodeBase} {cs : List ClassDecl} {d : Dependency}

/-- Code belongs to a type that exists. -/
theorem WellFormed.exists_owner (h : b.WellFormed) {e : Element}
    (he : e ∈ b.elements) (hcode : e.kind.isCodeUnit = true) :
    ∃ o, e.owner.bind b.element? = some o := by
  rcases howner : e.owner with - | c
  · -- only types belong to nothing, and these hold no code themselves
    rw [(h.owner_none_iff e he).mp howner] at hcode
    cases hcode
  · obtain ⟨o, ho, -⟩ := h.owner_type e he c howner
    exact ⟨o, ho⟩

theorem WellFormed.resolves (h : b.WellFormed) (hd : d ∈ b.dependencies) :
    b.model.Resolves d := by
  have hedge := h.edges d hd
  obtain ⟨origin, horigin, -⟩ := hedge.origin
  obtain ⟨originClass, horiginClass, -⟩ := hedge.originClass
  obtain ⟨targetClass, htargetClass, -⟩ := hedge.targetClass
  refine ⟨⟨_, horigin⟩, ⟨_, horiginClass⟩, ?_, ⟨_, htargetClass⟩, ?_⟩
  · rcases haccess : d.kind.isAccess
    · -- a use of a type ends at the type itself
      rw [hedge.typeUse haccess]
      exact ⟨_, htargetClass⟩
    · obtain ⟨kind, hkind⟩ := DependencyKind.exists_of_isAccess haccess
      obtain ⟨-, target, htarget, -⟩ := hedge.access kind hkind
      exact ⟨target, htarget⟩
  · intro haccess
    obtain ⟨kind, hkind⟩ := DependencyKind.exists_of_isAccess haccess
    obtain ⟨⟨caller, hcaller, -, hmember⟩, -⟩ := hedge.access kind hkind
    have hcode : caller.kind.isCodeUnit = true := by
      rcases hmember with hk | hk
      · rw [hk]
        rfl
      · rw [hk]
        rfl
    obtain ⟨o, ho⟩ := h.exists_owner (mem_of_element? hcaller) hcode
    exact ⟨caller, o, hcaller, hcode, ho⟩

/-- What a code base answers is among its dependencies, which resolve. -/
theorem Depicts.consistent_model (h : b.Depicts cs) : b.model.Consistent where
  leaving c d hd := by
    rw [h.sound.indexed.dependenciesFrom_eq] at hd
    exact h.wellFormed.resolves (List.mem_of_mem_filter hd)
  entering c d hd := by
    rw [h.sound.indexed.dependenciesInto_eq] at hd
    exact h.wellFormed.resolves (List.mem_of_mem_filter hd)
  calls c d hd := by
    obtain ⟨hmem, haccess⟩ := h.sound.indexed.of_mem_calls hd
    exact ⟨h.wellFormed.resolves hmem, haccess⟩

end CodeBase

namespace Blueprint

/-- **Built-in conditions never break off on a built code base.**  Whatever a
rule selects and however it is configured, if its condition is made of built-in
ones, the rule has a verdict, which sums up what is found on every selected
element, or it selects nothing and is told so. -/
theorem evaluate_completes {p : Blueprint} {b : CodeBase} (h : p.build = .ok b)
    {r : Rule} (hr : r.condition.BuiltIn) (config : Config) :
    (∃ v, r.evaluate b.model config = .ok v ∧ r.SumsUp b.model config v)
    ∨ (r.subjects b.model = [] ∧ r.evaluate b.model config
        = .error (.emptySelection r.description r.scope.noun)) := by
  have hm : b.model.Consistent := (depicts_build h).consistent_model
  obtain ⟨result, hresult⟩ := r.exists_comesTo b.model config
  have hevaluate := hresult.evaluate_eq
  cases hresult with
  | @broken _ _ e fault _ _ hbreaks =>
    -- the check of the element that is said to break off ends
    rw [Condition.fault_of_ends (hr.ends_check hm e)] at hbreaks
    cases hbreaks
  | empty hnone _ => exact Or.inr ⟨hnone, hevaluate⟩
  | verdict _ _ hsums => exact Or.inl ⟨_, hevaluate, hsums⟩

/-- A rule against both types of the shop, whose condition walks all their
dependencies, the calls to stubs included. -/
theorem shop_evaluate_completes : ∃ b, shop.build = .ok b
    ∧ ∃ v, (Selection.noClasses.should
          (.or (.and (.dependOn (.ofType "a.Money")) (.never (.accessedUnder "a.Mark")))
            (.describedAs "be reserved" (.accessedOnlyByAny ["a.Mark"])))).evaluate
        b.model {} = .ok v
      ∧ v.checked = 2 := by
  refine ⟨_, rfl, ?_⟩
  have hbuiltIn := Selection.builtIn_should
    (.or (.and (.dependOn (.ofType "a.Money")) (.never (.accessedUnder "a.Mark")))
      (.describedAs "be reserved" (.accessedOnlyByAny ["a.Mark"]))) .noClasses
  rcases evaluate_completes (p := shop) rfl hbuiltIn {} with ⟨v, hv, hsums⟩ | ⟨hnone, -⟩
  · exact ⟨v, hv, hsums.checked_eq.trans rfl⟩
  · cases hnone

end Blueprint

end Conformance
