/-
Conformance/Proofs/Scans.lean

A code base answers from its indexes what a scan would answer.

A model that knows no better goes through all dependencies for every question
about them.  A code base does not: it looks up places and follows lists of ids
that were kept up while it grew.  That the two agree, edge by edge and in the
same order, comes down to the indexes holding filters of the table (`Indexed`):
a list of ids that is followed gives the filter back, and filtering on gives the
scan.  An id that is out of range has nothing filed under it, and no dependency
starts or ends there.

So a rule cannot tell a code base from the view that changes nothing and scans
(`Indexed.model_eq_view`).
-/
import Conformance.CodeBase.Model
import Conformance.Proofs.Linked
import Conformance.Rule

namespace Conformance

namespace CodeBase

variable {b : CodeBase}

/-! ### Question by question -/

/-- The dependency at a place is the first one with that id. -/
theorem Indexed.dependency?_eq_find? (h : b.Indexed) (i : EdgeId) :
    b.dependency? i = b.dependencies.find? fun d => d.id == i := by
  rcases hfind : b.dependencies.find? (fun d => d.id == i) with - | d
  · rw [hfind, Option.eq_none_iff_forall_ne_some]
    intro d hd
    -- whatever stood at this place would have this id
    have hne := List.find?_eq_none.mp hfind d (mem_of_dependency? hd)
    exact hne (beq_iff_eq.mpr (h.edge_id hd))
  · have hid : (d.id == i) = true :=
      List.find?_some (p := fun d : Dependency => d.id == i) hfind
    rw [hfind, ← beq_iff_eq.mp hid]
    exact h.dependency?_of_mem (List.mem_of_find?_eq_some hfind)

theorem Indexed.dependenciesFrom_eq (h : b.Indexed) (c : ElementId) :
    b.model.dependenciesFrom c = b.dependencies.filter (Dependency.leaves c) := by
  show (b.outgoing c).filter (fun d => !d.isSelfEdge) = _
  rw [h.outgoing_eq, List.filter_filter]
  apply List.filter_congr
  intro d _
  exact Bool.and_comm _ _

theorem Indexed.dependenciesInto_eq (h : b.Indexed) (c : ElementId) :
    b.model.dependenciesInto c = b.dependencies.filter (Dependency.enters c) := by
  show (b.incoming c).filter (fun d => !d.isSelfEdge) = _
  rw [h.incoming_eq, List.filter_filter]
  apply List.filter_congr
  intro d _
  exact Bool.and_comm _ _

theorem Indexed.callsFrom_eq (h : b.Indexed) (c : ElementId) :
    b.model.callsFrom c = b.dependencies.filter (Dependency.callsFrom c) := by
  show (b.outgoing c).filter (fun d => d.kind.isAccess) = _
  rw [h.outgoing_eq, List.filter_filter]
  rfl

theorem Indexed.callsTo_eq (h : b.Indexed) (c : ElementId) :
    b.model.callsTo c = b.dependencies.filter (Dependency.callsTo c) := by
  show (b.incoming c).filter (fun d => d.kind.isAccess) = _
  rw [h.incoming_eq, List.filter_filter]
  rfl

/-- What is answered for accesses are accesses. -/
theorem Indexed.of_mem_calls (h : b.Indexed) {c : ElementId} {d : Dependency}
    (hd : d ∈ b.model.callsFrom c ++ b.model.callsTo c) :
    d ∈ b.dependencies ∧ d.kind.isAccess = true := by
  rw [h.callsFrom_eq, h.callsTo_eq] at hd
  simp only [List.mem_append, List.mem_filter, Dependency.callsFrom,
    Dependency.callsTo, Bool.and_eq_true] at hd
  rcases hd with ⟨hmem, haccess, -⟩ | ⟨hmem, haccess, -⟩
  · exact ⟨hmem, haccess⟩
  · exact ⟨hmem, haccess⟩

/-! ### All questions together -/

/-- Seen through a view that changes nothing, and that answers by scanning, a
code base looks as it does from its indexes. -/
theorem Indexed.model_eq_view (h : b.Indexed) : b.model = View.model {} b := by
  have hdependency : b.model.dependency? = (View.model {} b).dependency? :=
    funext h.dependency?_eq_find?
  have hfrom : b.model.dependenciesFrom = (View.model {} b).dependenciesFrom :=
    funext h.dependenciesFrom_eq
  have hinto : b.model.dependenciesInto = (View.model {} b).dependenciesInto :=
    funext h.dependenciesInto_eq
  have hcallsFrom : b.model.callsFrom = (View.model {} b).callsFrom :=
    funext h.callsFrom_eq
  have hcallsTo : b.model.callsTo = (View.model {} b).callsTo :=
    funext h.callsTo_eq
  -- the five basic questions are passed on as they are
  show CodeModel.mk b.element? b.classNamed? b.classes b.membersOf b.dependencies
    b.model.dependency? b.model.dependenciesFrom b.model.dependenciesInto
    b.model.callsFrom b.model.callsTo = View.model {} b
  rw [hdependency, hfrom, hinto, hcallsFrom, hcallsTo]
  rfl

end CodeBase

namespace Blueprint

/-- **Indexes answer like scans.**  To each of the five questions on
dependencies, about whatever id, a built code base gives the edges that a scan
of all its dependencies finds, in their order.  So every rule comes to the same
verdict, or fails for the same reason, on the code base and on the view that
passes on the five basic questions and scans for the rest. -/
theorem answers_eq_scans {p : Blueprint} {b : CodeBase} (h : p.build = .ok b) :
    (∀ i, b.model.dependency? i = b.dependencies.find? fun d => d.id == i)
    ∧ (∀ c, b.model.dependenciesFrom c
        = b.dependencies.filter fun d => d.originClass == c && !d.isSelfEdge)
    ∧ (∀ c, b.model.dependenciesInto c
        = b.dependencies.filter fun d => d.targetClass == c && !d.isSelfEdge)
    ∧ (∀ c, b.model.callsFrom c
        = b.dependencies.filter fun d => d.kind.isAccess && d.originClass == c)
    ∧ (∀ c, b.model.callsTo c
        = b.dependencies.filter fun d => d.kind.isAccess && d.targetClass == c)
    ∧ ∀ (r : Rule) (config : Config),
      r.evaluate b.model config = r.evaluate (View.model {} b) config := by
  have hindexed : b.Indexed := (depicts_build h).sound.indexed
  refine ⟨hindexed.dependency?_eq_find?, hindexed.dependenciesFrom_eq,
    hindexed.dependenciesInto_eq, hindexed.callsFrom_eq, hindexed.callsTo_eq, ?_⟩
  intro r config
  rw [hindexed.model_eq_view]

/-- In the shop an item is made of items, which is a use that stays within one
type, and the clerk calls what is only a stub; there is no hundredth element. -/
theorem shop_answers_eq_scans : ∃ b, shop.build = .ok b
    ∧ b.dependencies.any (·.isSelfEdge) = true
    ∧ (b.model.dependenciesFrom 1).map (·.kind) = [.returnType]
    ∧ (b.dependencies.filter fun d => d.originClass == 1 && !d.isSelfEdge).map
        (·.kind) = [.returnType]
    ∧ (b.dependencies.filter fun d => d.kind.isAccess && d.targetClass == 100) = []
    ∧ ∃ v, (Selection.noClasses.should (.dependOn (.ofType "a.Money"))).evaluate
        (View.model {} b) {} = .ok v ∧ v.violationCount = 1 := by
  obtain ⟨-, hfrom, -, -, hto, hrules⟩ := answers_eq_scans (p := shop) rfl
  refine ⟨_, rfl, by decide, by decide, ?_, ?_, _, (hrules _ {}).symm.trans rfl, ?_⟩
  · rw [← hfrom]
    decide
  · rw [← hto]
    decide
  · decide

end Blueprint

end Conformance
