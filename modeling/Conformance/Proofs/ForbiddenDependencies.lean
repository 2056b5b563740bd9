/-
Conformance/Proofs/ForbiddenDependencies.lean

Where depending on some types is forbidden, each such dependency is reported,
once and in order.

The rule is run type by type: the check of a type follows the dependencies that
leave it, and tells of each that ends in a type with the property
(`tells_checkTargets`).  Negated, these are the violations, and a type that was
found to lack such a dependency is fine.

That the reports on the types, one after the other, go through the
dependencies in the order of the code base is not due to the rule, but to the
order of building: uses are recorded type by type, so that what starts in a
declared type stands together (`Depicts.flatMap_outgoing`).
-/
import Conformance.Proofs.Completion
import Conformance.Proofs.Readings

namespace Conformance

open Check

/-! ### What is said of a dependency -/

namespace CodeModel

variable {m : CodeModel} {outcome : Outcome} {d : Dependency}

/-- The dependency leaves its type for another, which has the property. -/
def straysInto (m : CodeModel) (that : Predicate) (d : Dependency) : Bool :=
  d.originClass != d.targetClass && m.endsIn that d

theorem Tells.flip {event : Event} (h : m.Tells outcome d event) :
    m.Tells outcome.flip d event.flip := by
  cases h with
  | intro horigin horiginClass htarget => exact .intro horigin horiginClass htarget

theorem tells_flip {ds : List Dependency} {events : List Event}
    (h : List.Forall₂ (m.Tells outcome) ds events) :
    List.Forall₂ (m.Tells outcome.flip) ds (events.map Event.flip) :=
  List.forall₂_map_right_iff.mpr (h.imp fun _ _ => Tells.flip)

theorem outcome_of_tells {ds : List Dependency} {events : List Event}
    (h : List.Forall₂ (m.Tells outcome) ds events) :
    ∀ event ∈ events, event.outcome = outcome := by
  intro event hevent
  obtain ⟨d, -, htells⟩ := exists_rel_of_mem h hevent
  cases htells with
  | intro => rfl

end CodeModel

/-! ### The check of one type -/

namespace Condition

open CodeModel

variable {m : CodeModel}

/-- What is said of a type none of whose dependencies ends in a type with the
property. -/
def abstention (that : Predicate) (c : Element) : String :=
  "Class " ++ c.fullName ++ " does not depend on classes that "
    ++ that.description

theorem yields_never {e : Element} {c : Condition} {found : List Event}
    (h : Yields (c.check m e) () found) :
    Yields ((never c).check m e) () (found.map Event.flip) :=
  h.aside.bind (yields_emit _)

/-- Where depending on a type is forbidden, each dependency on it violates that,
and only if there is none is something said of the type itself. -/
theorem yields_never_dependOn (that : Predicate) (hm : m.Consistent)
    (c : Element) :
    ∃ found, List.Forall₂ (m.Tells .violated)
        ((m.dependenciesFrom c.id).filter (m.endsIn that)) found
      ∧ Yields ((never (dependOn that)).check m c) ()
        (found ++ if (m.dependenciesFrom c.id).any (m.endsIn that) then []
          else [.satisfied (.element c.id) (abstention that c)]) := by
  have hnone := fun d hd => (hm.leaving c.id d hd).not_targetFault that
  obtain ⟨found, hfound, htells⟩ := tells_checkTargets hnone false
  rw [Bool.false_or] at hfound
  refine ⟨found.map Event.flip, tells_flip htells, ?_⟩
  -- the type itself is spoken of in one of the two cases only
  cases hany : (m.dependenciesFrom c.id).any (m.endsIn that) with
  | false =>
    rw [hany] at hfound
    have hcheck : Yields ((dependOn that).check m c) ()
        (found ++ [.violated (.element c.id) (abstention that c)]) :=
      hfound.bind (yields_emit _)
    have hnever := yields_never hcheck
    rw [List.map_append] at hnever
    exact hnever
  | true =>
    rw [hany] at hfound
    have hcheck : Yields ((dependOn that).check m c) () (found ++ []) :=
      hfound.bind (yields_pure ())
    have hnever := yields_never hcheck
    rw [List.map_append] at hnever
    exact hnever

/-- The findings on one type, by outcome. -/
theorem findings_never_dependOn (that : Predicate) (hm : m.Consistent)
    (c : Element) :
    ((never (dependOn that)).findings m c).fault = none
    ∧ List.Forall₂ (m.Tells .violated)
        ((m.dependenciesFrom c.id).filter (m.endsIn that))
        (Event.violations ((never (dependOn that)).findings m c).events)
    ∧ ((never (dependOn that)).findings m c).events.filter
        (fun event => event.outcome == .satisfied)
      = if (m.dependenciesFrom c.id).any (m.endsIn that) then []
        else [.satisfied (.element c.id) (abstention that c)] := by
  obtain ⟨found, htells, hfound⟩ := yields_never_dependOn that hm c
  have hviolated : found.filter Event.isViolation = found := by
    refine List.filter_eq_self.mpr fun event hevent => ?_
    exact beq_iff_eq.mpr (outcome_of_tells htells event hevent)
  have hsatisfied : found.filter (fun event => event.outcome == .satisfied) = [] := by
    refine List.filter_eq_nil_iff.mpr fun event hevent => ?_
    rw [outcome_of_tells htells event hevent]
    exact Bool.false_ne_true
  rw [findings, hfound [], List.nil_append]
  refine ⟨rfl, ?_, ?_⟩
  · rw [Event.violations, List.filter_append, hviolated]
    split
    · rwa [List.filter_nil, List.append_nil]
    · show List.Forall₂ _ _ (found ++ [])
      rwa [List.append_nil]
  · rw [List.filter_append, hsatisfied, List.nil_append]
    split
    · rfl
    · rfl

end Condition

/-! ### All dependencies that stray -/

namespace CodeBase

variable {b : CodeBase} {cs : List ClassDecl}

/-- The dependencies that stray from each of the declared types are all that
stray, in order. -/
theorem Depicts.flatMap_straying (h : b.Depicts cs) (that : Predicate) :
    (b.classes.flatMap fun c =>
        (b.model.dependenciesFrom c.id).filter (b.model.endsIn that))
      = b.dependencies.filter (b.model.straysInto that) := by
  have hfrom : ∀ c : Element,
      (b.model.dependenciesFrom c.id).filter (b.model.endsIn that)
        = (b.outgoing c.id).filter (b.model.straysInto that) := by
    intro c
    show ((b.outgoing c.id).filter _).filter _ = _
    rw [List.filter_filter]
    apply List.filter_congr
    intro d _
    exact Bool.and_comm _ _
  simp only [hfrom]
  rw [← List.filter_flatMap, h.flatMap_outgoing]

theorem Depicts.any_dependenciesFrom (h : b.Depicts cs) (that : Predicate)
    (c : ElementId) :
    (b.model.dependenciesFrom c).any (b.model.endsIn that)
      = b.dependencies.any fun d =>
        d.originClass == c && b.model.straysInto that d := by
  rw [h.sound.indexed.dependenciesFrom_eq, List.any_filter]
  simp only [Dependency.leaves, Bool.and_assoc]
  rfl

end CodeBase

/-! ### The verdict -/

/-- A rule that selects something, and whose checks all come to their end, has
the verdict that sums them up. -/
theorem Rule.evaluate_of_complete {r : Rule} {m : CodeModel}
    (h : ∀ e ∈ r.subjects m, (r.findingsOn m e).fault = none)
    (hne : r.subjects m ≠ []) (config : Config) :
    r.evaluate m config = .ok (r.tally m config) :=
  ComesTo.evaluate_eq
    (.verdict h (fun hnil => absurd hnil hne) (r.sumsUp_tally m config))

namespace Blueprint

variable {p : Blueprint} {b : CodeBase}

theorem classes_ne_nil (h : p.build = .ok b) (hp : p.classes ≠ []) :
    b.classes ≠ [] := by
  intro hnil
  rw [(depicts_build h).classes_eq, List.map_eq_nil_iff] at hnil
  have hnames := p.names_declarations
  rw [hnil] at hnames
  exact hp (List.map_eq_nil_iff.mp hnames.symm)

/-- **Forbidden dependencies are all reported, once each, in order.**  Whatever
builds and declares a type, the rule that no type should depend on types with a
property has a verdict.  Its violations are the dependencies that leave their
type for one with the property, one for one and in the order of the code base,
each in its words; and it is satisfied with the declared types in which no such
dependency starts. -/
theorem evaluate_tells_straying (h : p.build = .ok b) (hp : p.classes ≠ [])
    (that : Predicate) (config : Config) :
    ∃ v, (Selection.noClasses.should (.dependOn that)).evaluate b.model config
        = .ok v
      ∧ List.Forall₂ (b.model.Tells .violated)
          (b.dependencies.filter (b.model.straysInto that)) v.violations
      ∧ (v.events.filter fun event => event.outcome == .satisfied)
        = (b.classes.filter fun c => !b.dependencies.any fun d =>
            d.originClass == c.id && b.model.straysInto that d).map fun c =>
          .satisfied (.element c.id) (Condition.abstention that c) := by
  have hb := depicts_build h
  have hfindings := Condition.findings_never_dependOn that hb.consistent_model
  have hsubjects : (Selection.noClasses.should (.dependOn that)).subjects b.model
      = b.classes := List.filter_eq_self.mpr fun _ _ => rfl
  refine ⟨_, Rule.evaluate_of_complete (fun c _ => (hfindings c).1) ?_ config, ?_, ?_⟩
  · rw [hsubjects]
    exact classes_ne_nil h hp
  · -- both sides are put together type by type
    show List.Forall₂ _ _ (List.filter _ (List.flatMap _ _))
    rw [hsubjects, List.filter_flatMap, ← hb.flatMap_straying that]
    refine List.rel_flatMap (List.forall₂_same.mpr fun c _ => (rfl : c = c)) ?_
    rintro c _ rfl
    exact (hfindings c).2.1
  · show List.filter _ (List.flatMap _ _) = _
    rw [hsubjects, List.filter_flatMap]
    refine (List.flatMap_congr fun c _ => (hfindings c).2.2).trans ?_
    rw [flatMap_unless]
    simp only [hb.any_dependenciesFrom]

/-- The clerk of the shop depends on items twice, first by a parameter and then
by a call; that items are made of items is no matter. -/
theorem shop_evaluate_tells_straying : shop.classes ≠ [] ∧ ∃ b v,
    shop.build = .ok b
    ∧ (Selection.noClasses.should (.dependOn (.ofType "a.Item"))).evaluate b.model {}
      = .ok v
    ∧ (b.dependencies.filter (b.model.endsIn (.ofType "a.Item"))).map (·.kind)
      = [.parameterType, .access .method, .fieldType]
    ∧ (b.dependencies.filter (b.model.straysInto (.ofType "a.Item"))).map (·.kind)
      = [.parameterType, .access .method]
    ∧ List.Forall₂ (b.model.Tells .violated)
        (b.dependencies.filter (b.model.straysInto (.ofType "a.Item"))) v.violations
    ∧ (v.events.filter fun event => event.outcome == .satisfied)
      = [.satisfied (.element 1)
          "Class a.Item does not depend on classes that are of type a.Item"] := by
  obtain ⟨v, hv, hviolations, hsatisfied⟩ :=
    evaluate_tells_straying (p := shop) rfl (by decide) (.ofType "a.Item") {}
  refine ⟨by decide, _, v, rfl, hv, by decide, by decide, hviolations,
    hsatisfied.trans ?_⟩
  decide

end Blueprint

end Conformance
