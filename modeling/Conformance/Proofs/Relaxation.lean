/-
Conformance/Proofs/Relaxation.lean

A condition that accepts more markers is a weaker one, and so are the rules made
with it.

The users of a type are looked up before any marker is: whether they can be
told does not depend on the markers, nor on the words of the complaint.  Which
of them are flagged does, and a marker more can only take users off the list.
This is an order on findings (`Findings.Relaxes`): they break off alike, and the
violations of the weaker ones are some of those of the others, in order.  A rule
adds up the findings on its subjects, so two rules with the same subjects are
ordered as their findings are (`Rule.Relaxes.evaluate`).

Nothing is asked of the model.  It may lack the users, or show one element in
the place of several, which is then flagged once.
-/
import Mathlib.Data.List.Flatten
import Conformance.Catalog
import Conformance.CodeBase.Build
import Conformance.CodeBase.Model
import Conformance.Proofs.Faults
import Conformance.Proofs.Merging

namespace Conformance

open Check

/-! ### Findings -/

namespace Findings

/-- The subjects of the violations, in order. -/
def violated (f : Findings) : List Subject :=
  (Event.violations f.events).map (·.subject)

theorem violated_map {α : Type} (subject : α → Subject) (message : α → String)
    (as : List α) :
    violated { events := as.map fun a => .violated (subject a) (message a) }
      = as.map subject := by
  induction as with
  | nil => rfl
  | cons a as ih => exact congrArg (subject a :: ·) ih

/-- The findings are those of a weaker condition: they break off alike, and
violations are missing at most. -/
structure Relaxes (f' f : Findings) : Prop where
  fault_eq : f'.fault = f.fault
  sublist : f'.violated.Sublist f.violated

end Findings

/-! ### Users without a marker -/

namespace Condition

variable {m : CodeModel} {e : Element} {c c' : Condition} {markers markers' : List String}
  {complaint complaint' : String}

theorem findings_of_yields {found : List Event} (h : Yields (c.check m e) () found) :
    c.findings m e = { events := found } := by
  rw [findings, h []]
  rfl

theorem findings_of_breaks {fault : Inconsistency} {found : List Event}
    (h : Breaks (c.check m e) fault found) :
    c.findings m e = { events := found, fault := some fault } := by
  rw [findings, h []]
  rfl

/-- The users of a type; none, if not all of them can be told. -/
def knownUsers (m : CodeModel) (e : Element) : List Element :=
  match dependentClasses m e.id with
  | .ok users => users
  | .error _ => []

/-- Why the users of a type cannot be told. -/
def usersFault (m : CodeModel) (e : Element) : Option Inconsistency :=
  match dependentClasses m e.id with
  | .ok _ => none
  | .error fault => some fault

/-- The users of a type that lack every marker. -/
def flaggedUsers (m : CodeModel) (markers : List String) (e : Element) : List Element :=
  (knownUsers m e).filter fun user => !markers.any (m.isMetaAnnotatedWith user)

/-- What is found about the users of a type: the complaint is for people, and
the markers have no say in whether the check breaks off. -/
theorem findings_of_checkUsers (hc : c.check m e = checkUsers m markers complaint e) :
    (c.findings m e).fault = usersFault m e
      ∧ (c.findings m e).violated
        = (flaggedUsers m markers e).map fun user => .element user.id := by
  unfold usersFault flaggedUsers knownUsers
  rcases husers : dependentClasses m e.id with fault | users
  · have hbreaks : Breaks (c.check m e) fault [] := by
      rw [hc]
      exact breaks_lookup husers _
    rw [findings_of_breaks hbreaks]
    exact ⟨rfl, rfl⟩
  · have hyields : Yields (c.check m e) ()
        ((users.filter fun user => !markers.any (m.isMetaAnnotatedWith user)).map fun user =>
          .violated (.element user.id) ("Class " ++ user.fullName ++ " " ++ complaint)) := by
      rw [hc]
      exact .after_lookup husers (yields_emit _)
    rw [findings_of_yields hyields]
    exact ⟨rfl, Findings.violated_map _ _ _⟩

/-- No user comes twice, whatever the model shows for the origins of
dependencies. -/
theorem nodup_knownUsers (m : CodeModel) (e : Element) :
    ((knownUsers m e).map (·.id)).Nodup := by
  unfold knownUsers dependentClasses
  rcases resolveOrigins m (m.dependenciesInto e.id) with fault | origins
  · exact List.nodup_nil
  · -- by their own ids, not by those they were looked up under
    show ((firstSeenBy (·.id) [] origins).map (·.id)).Nodup
    rw [map_firstSeenBy]
    exact nodup_firstSeenBy [] _

theorem nodup_violated (hc : c.check m e = checkUsers m markers complaint e) :
    (c.findings m e).violated.Nodup := by
  have hids : ((flaggedUsers m markers e).map (·.id)).Nodup :=
    (nodup_knownUsers m e).sublist (List.filter_sublist.map _)
  rw [(findings_of_checkUsers hc).2]
  have hsubjects := hids.map fun _ _ => Subject.element.inj
  rwa [List.map_map] at hsubjects

/-- More markers flag fewer users. -/
theorem flaggedUsers_sublist (h : markers ⊆ markers') :
    (flaggedUsers m markers' e).Sublist (flaggedUsers m markers e) := by
  refine List.monotone_filter_right _ fun user huser => ?_
  -- a user with none of the markers has none of the fewer
  simp only [Bool.not_eq_true', List.any_eq_false] at huser ⊢
  exact fun marker hmarker => huser marker (h hmarker)

theorem relaxes_of_subset (h : markers ⊆ markers')
    (hc : c.check m e = checkUsers m markers complaint e)
    (hc' : c'.check m e = checkUsers m markers' complaint' e) :
    (c'.findings m e).Relaxes (c.findings m e) := by
  obtain ⟨hfault, hviolated⟩ := findings_of_checkUsers hc
  obtain ⟨hfault', hviolated'⟩ := findings_of_checkUsers hc'
  refine ⟨hfault'.trans hfault.symm, ?_⟩
  rw [hviolated, hviolated']
  exact (flaggedUsers_sublist h).map _

end Condition

/-! ### Rules -/

/-- The result of a weaker rule beside that of a rule: there is the same reason
for having no verdict, or there are verdicts on as many elements, and violations
are missing at most. -/
inductive Relaxed :
    Except EvaluationError Verdict → Except EvaluationError Verdict → Prop where
  | inconsistent {rule rule' : String} {fault : Inconsistency} :
      Relaxed (.error (.inconsistent rule' fault)) (.error (.inconsistent rule fault))
  | emptySelection {rule rule' noun : String} :
      Relaxed (.error (.emptySelection rule' noun)) (.error (.emptySelection rule noun))
  | verdict {v v' : Verdict} (checked_eq : v'.checked = v.checked)
      (sublist : (v'.violations.map (·.subject)).Sublist (v.violations.map (·.subject))) :
      Relaxed (.ok v') (.ok v)

namespace Rule

variable {r r' : Rule} {m : CodeModel} {config : Config}

/-- The rule is about the same elements, and asks for less. -/
structure Relaxes (r' r : Rule) (m : CodeModel) : Prop where
  scope_eq : r'.scope = r.scope
  filters_eq : r'.filters = r.filters
  findings : ∀ e, (r'.findingsOn m e).Relaxes (r.findingsOn m e)

/-- With a weaker condition, the same selection gives a weaker rule. -/
theorem relaxes_should {s : Selection} {c c' : Condition} (hs : s.negated = false)
    (h : ∀ e, (c'.findings m e).Relaxes (c.findings m e)) (name name' : String) :
    ((s.should c').named name').Relaxes ((s.should c).named name) m where
  scope_eq := rfl
  filters_eq := rfl
  findings e := by
    show Findings.Relaxes (Condition.findings m e (if s.negated then .never c' else c'))
      (Condition.findings m e (if s.negated then .never c else c))
    rw [hs]
    exact h e

/-- Without configuration, a rule has to select something. -/
theorem emptyAllowed_should (s : Selection) (c : Condition) (name : String) :
    ((s.should c).named name).emptyAllowed {} = false := rfl

theorem Relaxes.subjects_eq (h : r'.Relaxes r m) : r'.subjects m = r.subjects m := by
  rw [subjects, subjects, h.scope_eq, h.filters_eq]

theorem violated_tally (r : Rule) (m : CodeModel) (config : Config) :
    (r.tally m config).violations.map (·.subject)
      = (r.subjects m).flatMap fun e => (r.findingsOn m e).violated := by
  show (List.filter _ (List.flatMap _ _)).map _ = _
  rw [List.filter_flatMap, List.map_flatMap]
  rfl

/-- Less is found element by element, so less is found in all. -/
theorem Relaxes.sublist_tally (h : r'.Relaxes r m) :
    ((r'.tally m config).violations.map (·.subject)).Sublist
      ((r.tally m config).violations.map (·.subject)) := by
  rw [violated_tally, violated_tally, h.subjects_eq]
  exact List.Sublist.flatMap_right _ fun e _ => (h.findings e).sublist

/-- A weaker rule has a weaker result, where the two may select nothing
alike. -/
theorem Relaxes.evaluate (h : r'.Relaxes r m)
    (hempty : r'.emptyAllowed config = r.emptyAllowed config) :
    Relaxed (r'.evaluate m config) (r.evaluate m config) := by
  have hfault : ∀ e, (r'.findingsOn m e).fault = (r.findingsOn m e).fault :=
    fun e => (h.findings e).fault_eq
  obtain ⟨result, hresult⟩ := r.exists_comesTo m config
  rw [hresult.evaluate_eq]
  -- whatever the rule comes to, the weaker one comes to its like
  cases hresult with
  | broken hsubjects hbefore hbreaks =>
    have hlike : r'.ComesTo m config (.error (.inconsistent r'.description _)) :=
      .broken (h.subjects_eq.trans hsubjects)
        (fun e he => (hfault e).trans (hbefore e he)) ((hfault _).trans hbreaks)
    rw [hlike.evaluate_eq]
    exact .inconsistent
  | empty hsubjects hforbidden =>
    have hlike : r'.ComesTo m config (.error (.emptySelection r'.description r'.scope.noun)) :=
      .empty (h.subjects_eq.trans hsubjects) (hempty.trans hforbidden)
    rw [hlike.evaluate_eq, h.scope_eq]
    exact .emptySelection
  | verdict hcomplete hallowed hsums =>
    have hlike : r'.ComesTo m config (.ok (r'.tally m config)) := by
      refine .verdict ?_ ?_ (r'.sumsUp_tally m config)
      · intro e he
        rw [h.subjects_eq] at he
        exact (hfault e).trans (hcomplete e he)
      · rw [h.subjects_eq, hempty]
        exact hallowed
    rw [hlike.evaluate_eq, hsums.eq_tally]
    exact .verdict (congrArg List.length h.subjects_eq) h.sublist_tally

end Rule

theorem Verdict.passed_iff_violated {v : Verdict} :
    v.passed = true ↔ v.violations.map (·.subject) = [] := by
  rw [List.map_eq_nil_iff, ← List.length_eq_zero_iff]
  exact beq_iff_eq

namespace Relaxed

variable {result result' : Except EvaluationError Verdict}

/-- What passes a rule passes a weaker one. -/
theorem passed (h : Relaxed result' result) {v : Verdict} (hv : result = .ok v)
    (hpassed : v.passed = true) : ∃ v', result' = .ok v' ∧ v'.passed = true := by
  cases h with
  | inconsistent => cases hv
  | emptySelection => cases hv
  | verdict _ hsublist =>
    cases hv
    refine ⟨_, rfl, ?_⟩
    -- there is nothing that could be missing
    rw [Verdict.passed_iff_violated] at hpassed ⊢
    rw [hpassed] at hsublist
    exact List.sublist_nil.mp hsublist

theorem code_iff (h : Relaxed result' result) (code : String) :
    (∃ error, result = .error error ∧ error.code = code)
      ↔ ∃ error, result' = .error error ∧ error.code = code := by
  cases h with
  | inconsistent => simp [EvaluationError.code]
  | emptySelection => simp [EvaluationError.code]
  | verdict => simp

end Relaxed

/-! ### Conditions and rules on users -/

open Catalog

/-- **Accepting more markers relaxes a condition, and a rule.**  On every model
and for every type, the condition that only types with one of some markers use
it breaks off alike for any markers.  The violations are about distinct
elements, and those for more markers are some of those for fewer, in order.  The
condition for one marker comes to the same, but for its words.  So the rules on
repositories, left to their own configuration, have no verdict for one and the
same reason, or the one for services and controllers has at most the violations
of the one for services; in particular it holds where that one holds. -/
theorem more_markers_relax (m : CodeModel) :
    (∀ c markers markers', markers ⊆ markers' →
      (Condition.findings m c (.accessedOnlyByAny markers')).Relaxes
        (Condition.findings m c (.accessedOnlyByAny markers)))
    ∧ (∀ c markers, (Condition.findings m c (.accessedOnlyByAny markers)).violated.Nodup
      ∧ ∀ s ∈ (Condition.findings m c (.accessedOnlyByAny markers)).violated,
        ∃ i, s = .element i)
    ∧ (∀ c marker, (Condition.findings m c (.accessedOnlyBy marker)).fault
        = (Condition.findings m c (.accessedOnlyByAny [marker])).fault
      ∧ (Condition.findings m c (.accessedOnlyBy marker)).violated
        = (Condition.findings m c (.accessedOnlyByAny [marker])).violated)
    ∧ Relaxed (repositoriesAccessedByServicesOrControllers.evaluate m {})
      (repositoriesAccessedByServices.evaluate m {})
    ∧ (repositoriesAccessedByServices.check m {} = .ok () →
      repositoriesAccessedByServicesOrControllers.check m {} = .ok ())
    ∧ ∀ code, (∃ error, repositoriesAccessedByServices.evaluate m {} = .error error
        ∧ error.code = code)
      ↔ ∃ error, repositoriesAccessedByServicesOrControllers.evaluate m {} = .error error
        ∧ error.code = code := by
  have hmore : [service] ⊆ [service, controller] :=
    List.cons_subset_cons service (List.nil_subset _)
  have hrules : repositoriesAccessedByServicesOrControllers.Relaxes
      repositoriesAccessedByServices m :=
    Rule.relaxes_should rfl (fun e => Condition.relaxes_of_subset hmore rfl rfl) _ _
  have hrelaxed : Relaxed (repositoriesAccessedByServicesOrControllers.evaluate m {})
      (repositoriesAccessedByServices.evaluate m {}) :=
    hrules.evaluate ((Rule.emptyAllowed_should _ _ _).trans
      (Rule.emptyAllowed_should _ _ _).symm)
  refine ⟨?_, ?_, ?_, hrelaxed, ?_, hrelaxed.code_iff⟩
  · intro c markers markers' h
    exact Condition.relaxes_of_subset h rfl rfl
  · intro c markers
    refine ⟨Condition.nodup_violated rfl, ?_⟩
    intro s hs
    rw [(Condition.findings_of_checkUsers rfl).2] at hs
    obtain ⟨user, -, rfl⟩ := List.mem_map.mp hs
    exact ⟨user.id, rfl⟩
  · intro c marker
    obtain ⟨hfault, hviolated⟩ :=
      Condition.findings_of_checkUsers (c := .accessedOnlyBy marker) (e := c) (m := m) rfl
    obtain ⟨hfault', hviolated'⟩ :=
      Condition.findings_of_checkUsers (c := .accessedOnlyByAny [marker]) (e := c) (m := m) rfl
    exact ⟨hfault.trans hfault'.symm, hviolated.trans hviolated'.symm⟩
  · rw [Rule.check_eq_ok_iff, Rule.check_eq_ok_iff]
    rintro ⟨v, hv, hpassed⟩
    exact hrelaxed.passed hv hpassed

/-- A shelf is known to its keeper, to a page, to a note and to a draft. -/
def Blueprint.library : Blueprint where
  classes :=
    [{ name := "a.Shelf" },
      { name := "a.Keeper", superclass := some "a.Shelf"
        annotations := [{ typeName := "a.Key" }] },
      { name := "a.Page", superclass := some "a.Shelf"
        annotations := [{ typeName := "a.Lens" }] },
      { name := "a.Note", superclass := some "a.Shelf" },
      { name := "a.Draft", superclass := some "a.Shelf" }]

/-- Seen so that the draft is shown as the note, the page and the note are
flagged, each once, and with a marker more the note alone. -/
theorem library_more_markers_relax : ["a.Key"] ⊆ ["a.Lens", "a.Key"]
    ∧ ∃ b shelf, Blueprint.library.build = .ok b ∧ b.element? 0 = some shelf
    ∧ (Condition.findings (View.model { exchanged := [(4, 3)] } b) shelf
        (.accessedOnlyByAny ["a.Key"])).violated = [.element 2, .element 3]
    ∧ (Condition.findings (View.model { exchanged := [(4, 3)] } b) shelf
        (.accessedOnlyByAny ["a.Lens", "a.Key"])).violated = [.element 3]
    ∧ (Condition.findings (View.model { exchanged := [(4, 3)] } b) shelf
        (.accessedOnlyByAny ["a.Lens", "a.Key"])).Relaxes
      (Condition.findings (View.model { exchanged := [(4, 3)] } b) shelf
        (.accessedOnlyByAny ["a.Key"])) := by
  have hmore : ["a.Key"] ⊆ ["a.Lens", "a.Key"] := by decide
  refine ⟨hmore, _, _, rfl, rfl, by decide +kernel, by decide +kernel, ?_⟩
  exact (more_markers_relax _).1 _ _ _ hmore

end Conformance
