/-
Conformance/Proofs/DeclarationOrder.lean

The order in which types are declared does not matter for the verdict.

Declaring types in another order gives all elements and dependencies other ids,
and has stubs made by other references.  None of it shows: whether declarations
describe a code base is a matter of each of them and of their names (`Valid`),
and what the rules of the catalog say is read off the declarations
(`Rule.Reads`), where another order does no more than bring the complaints in
another order (`Rule.OrderFree`).
-/
import Mathlib.Data.List.Perm.Basic
import Conformance.Proofs.Readings

namespace Conformance

variable {cs cs' : List ClassDecl}

/-! ### Blueprints -/

namespace Blueprint

variable {p : Blueprint}

theorem declarations_perm (h : p.classes.Perm cs) :
    p.declarations.Perm { p with classes := cs }.declarations :=
  h.map _

theorem Valid.perm (hp : p.Valid) (h : p.classes.Perm cs) :
    { p with classes := cs }.Valid where
  owners om hom := (h.map _).mem_iff.mp (hp.owners om hom)
  named c hc := hp.named c (h.mem_iff.mpr hc)
  nodup := (h.map _).nodup_iff.mp hp.nodup
  members c hc := hp.members c ((declarations_perm h).mem_iff.mpr hc)

/-- A reordered blueprint builds if the blueprint does. -/
theorem exists_build_perm (h : p.classes.Perm cs) (hp : ∃ b, p.build = .ok b) :
    ∃ b, { p with classes := cs }.build = .ok b := by
  obtain ⟨b, hb⟩ := hp
  exact ⟨_, build_eq_ok_iff.mpr ⟨(build_eq_ok_iff.mp hb).1.perm h, rfl⟩⟩

end Blueprint

/-! ### Readings -/

/-- The rule reads the same off declarations in any order, up to the order of
subjects and complaints. -/
def Rule.OrderFree (r : Rule) : Prop :=
  ∃ (σ : Type) (subjects : List ClassDecl → List σ)
    (complaints : List ClassDecl → σ → List String),
    r.Reads subjects complaints ∧ ∀ cs cs', cs.Perm cs' →
      (cs.map (·.name)).Nodup → (subjects cs).Perm (subjects cs')
        ∧ ∀ s, (complaints cs s).Perm (complaints cs' s)

/-- A rule on types is order-free if its complaints are. -/
theorem Rule.orderFree_of_filter {r : Rule} {selected : ClassDecl → Bool}
    {complaints : List ClassDecl → ClassDecl → List String}
    (hr : r.Reads (·.filter selected) complaints)
    (h : ∀ cs cs', cs.Perm cs' → (cs.map (·.name)).Nodup →
      ∀ c, (complaints cs c).Perm (complaints cs' c)) : r.OrderFree :=
  ⟨_, _, _, hr, fun cs cs' hcs hnd => ⟨hcs.filter _, h cs cs' hcs hnd⟩⟩

theorem usesOf_perm (h : cs.Perm cs') (name : String) :
    (usesOf cs name).Perm (usesOf cs' name) :=
  (h.flatMap_right _).filter _

theorem unprotectedCalls_perm (h : cs.Perm cs') (marker : String) (c : ClassDecl) :
    (unprotectedCalls marker cs c).Perm (unprotectedCalls marker cs' c) :=
  (((usesOf_perm h c.name).filter _).filter _).map _

/-- Annotations on annotations are the same in any order. -/
theorem isMetaAnnotatedWith_perm (h : cs.Perm cs') (hnd : (cs.map (·.name)).Nodup)
    (c : ClassDecl) : c.isMetaAnnotatedWith cs = c.isMetaAnnotatedWith cs' := by
  funext marker
  refine CodeModel.isMetaAnnotatedWith_congr rfl ?_
  refine markersOfType_annotationModel_congr hnd ((h.map _).nodup_iff.mp hnd) ?_ ?_
  · exact fun c hc => ⟨c, h.mem_iff.mp hc, rfl, rfl⟩
  · exact fun c hc => ⟨c, h.mem_iff.mpr hc, rfl⟩

theorem unmarkedUsers_perm (h : cs.Perm cs') (hnd : (cs.map (·.name)).Nodup)
    (markers : List String) (complaint : String) (c : ClassDecl) :
    (unmarkedUsers markers complaint cs c).Perm
      (unmarkedUsers markers complaint cs' c) := by
  simp only [unmarkedUsers, isMetaAnnotatedWith_perm h hnd]
  exact ((h.filter _).filter _).map _

/-- All rules of the catalog are order-free. -/
theorem Catalog.orderFree_of_mem : ∀ r ∈ allRules, r.OrderFree := by
  refine forall_allRules.mpr ⟨?_, ?_, ?_, ?_, ?_, ?_, ?_⟩
  · exact Rule.orderFree_of_filter reads_noJUnit4 fun _ _ _ _ _ => .rfl
  · exact Rule.orderFree_of_filter reads_noJavaUtilDate fun _ _ _ _ _ => .rfl
  · exact Rule.orderFree_of_filter reads_entitiesHavePublicEmptyConstructor
      fun _ _ _ _ _ => .rfl
  · -- the one rule whose subjects are not types
    refine ⟨_, _, _, reads_lifeCycleCallbacksCorrectlyDeclared, ?_⟩
    exact fun cs cs' hcs _ => ⟨(hcs.flatMap_right _).filter _, fun _ => .rfl⟩
  · exact Rule.orderFree_of_filter reads_repositoriesAccessedByTransactionalCode
      fun _ _ hcs _ c => unprotectedCalls_perm hcs _ c
  · exact Rule.orderFree_of_filter reads_repositoriesAccessedByServices
      fun _ _ hcs hnd c => unmarkedUsers_perm hcs hnd _ _ c
  · exact Rule.orderFree_of_filter
      reads_repositoriesAccessedByServicesOrControllers
      fun _ _ hcs hnd c => unmarkedUsers_perm hcs hnd _ _ c

/-! ### Verdicts -/

namespace Blueprint

/-- **Declaration order does not matter.**  Types declared in another order
build a code base if they did before, and every rule of the catalog comes to
the same verdict on it: either way it selects nothing and says so, or it
selects as many elements and has the same complaints, perhaps in another
order. -/
theorem verdicts_perm (p : Blueprint) {cs : List ClassDecl}
    (h : p.classes.Perm cs) :
    ((∃ b, p.build = .ok b) ↔ ∃ b, { p with classes := cs }.build = .ok b)
    ∧ ∀ b b', p.build = .ok b → { p with classes := cs }.build = .ok b' →
      ∀ r ∈ Catalog.allRules, ∀ config : Config,
        (r.evaluate b.model config
            = .error (.emptySelection r.description r.scope.noun)
          ∧ r.evaluate b'.model config
            = .error (.emptySelection r.description r.scope.noun))
        ∨ ∃ v v', r.evaluate b.model config = .ok v
          ∧ r.evaluate b'.model config = .ok v'
          ∧ v.checked = v'.checked ∧ v.violationCount = v'.violationCount
          ∧ (v.violations.map (·.message)).Perm
            (v'.violations.map (·.message)) := by
  refine ⟨⟨exists_build_perm h, ?_⟩, ?_⟩
  · exact exists_build_perm (p := { p with classes := cs }) h.symm
  intro b b' hb hb' r hr config
  obtain ⟨σ, subjects, complaints, hreads, hfree⟩ := Catalog.orderFree_of_mem r hr
  have hdepicts := depicts_build hb
  obtain ⟨hsubjects, hcomplaints⟩ :=
    hfree _ _ (declarations_perm h) hdepicts.nodup
  rcases hreads.compare hdepicts (depicts_build hb') hsubjects.length_eq config
    with hempty | ⟨v, v', hv, hv', hchecked, hmessages, hmessages'⟩
  · exact Or.inl hempty
  · have hperm : (v.violations.map (·.message)).Perm
        (v'.violations.map (·.message)) := by
      rw [hmessages, hmessages']
      exact hsubjects.flatMap fun s _ => hcomplaints s
    refine Or.inr ⟨v, v', hv, hv', hchecked, ?_, hperm⟩
    -- each complaint is one violation
    have hlen := hperm.length_eq
    rw [List.length_map, List.length_map] at hlen
    exact hlen

/-- A store, and three types that use it in different ways; one is a service. -/
def store : Blueprint where
  classes :=
    [{ name := "a.Store", annotations := [{ typeName := Catalog.repository }] },
      { name := "a.Till"
        members :=
          [{ head := .method "pay"
             accesses := [{ owner := "a.Store", target := .method "save" [] }] }] },
      { name := "a.Shelf", interfaces := ["a.Store"] },
      { name := "a.Desk", annotations := [{ typeName := Catalog.service }]
        superclass := some "a.Store" }]

/-- Declared backwards, the store has the same two users that are no
services. -/
theorem store_verdicts_perm :
    store.classes.Perm store.classes.reverse ∧ ∃ b b', store.build = .ok b
      ∧ { store with classes := store.classes.reverse }.build = .ok b'
      ∧ ∃ v v', Catalog.repositoriesAccessedByServices.evaluate b.model {} = .ok v
        ∧ Catalog.repositoriesAccessedByServices.evaluate b'.model {} = .ok v'
        ∧ v.violations.map (·.message)
          = ["Class a.Till is not annotated by @Service",
            "Class a.Shelf is not annotated by @Service"]
        ∧ (v.violations.map (·.message)).Perm (v'.violations.map (·.message)) := by
  have hperm := (List.reverse_perm store.classes).symm
  refine ⟨hperm, _, _, rfl, rfl, _, _, rfl, rfl, by decide +kernel, ?_⟩
  rcases (verdicts_perm store hperm).2 _ _ rfl rfl
      Catalog.repositoriesAccessedByServices
      (by simp [Catalog.allRules, Catalog.springRules]) {}
    with ⟨hempty, -⟩ | ⟨v, v', hv, hv', -, -, hmessages⟩
  · cases hempty
  · cases hv
    cases hv'
    exact hmessages

end Blueprint

end Conformance
