/-
Conformance/Proofs/Bracketings.lean

How alternatives are bracketed makes no difference to reports.

`or` joins two conditions.  More alternatives are joined by joining what has
been joined, and each joining throws something away: which branch was silent,
how many events there were on a subject, what a branch with a violation found
satisfied.  None of that is needed again.  What matters of a branch is, for each
subject, the judgement on that branch alone, and the judgement on several
branches is put together from those of two lots of them (`judge_append`).

Joined findings, taken as one branch, stand for the branches they come from:
`Condenses found branches` says that the judgements are the same, and that the
subjects which all branches violate come in the same order.  It holds of a
single branch, and joining two lots keeps it (`Condenses.join`).  So by
induction on the brackets it holds of every way to join conditions
(`Bracketing.condenses`).

The order of satisfactions is another matter: a subject that is passed over in
inner brackets, and comes up again later, comes later.
-/
import Conformance.CodeBase.Model
import Conformance.Proofs.FreshRuns
import Conformance.Proofs.Merging

namespace Conformance

namespace Alternatives

variable {bs bs' : List (List Event)} {b : List Event} {s : Subject}

/-! ### Judging two lots of branches -/

/-- The judgement on two lots of branches, from the judgement on each. -/
def reconcile : Option Event → Option Event → Option Event
  | some ⟨s, .violated, message⟩, some ⟨_, .violated, message'⟩ =>
    some (.violated s (message ++ " and " ++ message'))
  | some ⟨s, .satisfied, message⟩, _ => some (.satisfied s message)
  | _, some ⟨s, .satisfied, message⟩ => some (.satisfied s message)
  | _, _ => none

theorem objections_append (bs bs' : List (List Event)) (s : Subject) :
    objections (bs ++ bs') s = objections bs s ++ objections bs' s := by
  simp [objections]

theorem objections_ne_nil (hbs : bs ≠ []) (h : ∀ b ∈ bs, Violates s b) :
    objections bs s ≠ [] := by
  obtain ⟨b, hb⟩ := List.exists_mem_of_ne_nil bs hbs
  obtain ⟨e, he, hs, ho⟩ := h b hb
  apply List.ne_nil_of_mem (a := e.message)
  apply List.mem_map_of_mem
  simp only [List.mem_filter, List.mem_flatten]
  exact ⟨⟨b, hb, he⟩, by simp [hs, ho]⟩

/-- Branches that are all violated accept nothing. -/
theorem findSome?_of_unanimous (h : ∀ b ∈ bs, Violates s b) :
    bs.findSome? (fun b => satisfaction? (about s b)) = none := by
  rw [List.findSome?_eq_none_iff]
  intro b hb
  exact satisfaction?_eq_none_iff.mpr fun haccepts => haccepts.1 (h b hb)

theorem judge_append (hbs : bs ≠ []) (hbs' : bs' ≠ []) (s : Subject) :
    judge (bs ++ bs') s = reconcile (judge bs s) (judge bs' s) := by
  by_cases hall : ∀ b ∈ bs, Violates s b
  · by_cases hall' : ∀ b ∈ bs', Violates s b
    · -- everybody is heard, the first lot before the second; both have something
      -- to say, so the messages are joined at the seam like everywhere else
      have hboth : ∀ b ∈ bs ++ bs', Violates s b := by
        simpa [or_imp, forall_and] using ⟨hall, hall'⟩
      rw [judge_of_unanimous hboth, judge_of_unanimous hall,
        judge_of_unanimous hall', objections_append,
        String.intercalate_append_of_ne_nil (objections_ne_nil hbs hall)
          (objections_ne_nil hbs' hall')]
      rfl
    · -- the first lot is overruled by the second
      have hdissent' : ∃ b ∈ bs', ¬ Violates s b := by simpa using hall'
      have hdissent : ∃ b ∈ bs ++ bs', ¬ Violates s b := by
        obtain ⟨b, hb, hv⟩ := hdissent'
        exact ⟨b, List.mem_append_right bs hb, hv⟩
      rw [judge_of_dissent hdissent, judge_of_unanimous hall,
        judge_of_dissent hdissent', List.findSome?_append,
        findSome?_of_unanimous hall, Option.none_or]
      rcases bs'.findSome? (fun b => satisfaction? (about s b)) with - | message <;> rfl
  · have hdissent : ∃ b ∈ bs, ¬ Violates s b := by simpa using hall
    have hdissent' : ∃ b ∈ bs ++ bs', ¬ Violates s b := by
      obtain ⟨b, hb, hv⟩ := hdissent
      exact ⟨b, List.mem_append_left bs' hb, hv⟩
    rw [judge_of_dissent hdissent', judge_of_dissent hdissent, List.findSome?_append]
    by_cases hall' : ∀ b ∈ bs', Violates s b
    · rw [judge_of_unanimous hall', findSome?_of_unanimous hall', Option.or_none]
      rcases bs.findSome? (fun b => satisfaction? (about s b)) with - | message <;> rfl
    · rw [judge_of_dissent (by simpa using hall')]
      rcases bs.findSome? (fun b => satisfaction? (about s b)) with - | message
      · rcases bs'.findSome? (fun b => satisfaction? (about s b)) with - | message <;> rfl
      · rfl

/-! ### Judging what is joined already -/

/-- The joined findings of some branches speak only of what these speak of. -/
theorem mem_subjects_of_judge (hbs : bs ≠ []) {e : Event}
    (h : judge bs s = some e) : s ∈ subjects bs := by
  have hsays : Says bs s [e] := says_iff.mpr (by rw [h]; rfl)
  rw [mem_subjects_iff]
  cases hsays with
  | violated hall =>
    obtain ⟨b, hb⟩ := List.exists_mem_of_ne_nil bs hbs
    obtain ⟨e, he, hs, -⟩ := hall b hb
    exact ⟨b, hb, e, he, hs⟩
  | satisfied hbs _ haccepts _ =>
    obtain ⟨e, he, hs, -⟩ := haccepts.2
    exact ⟨_, by simp [hbs], e, he, hs⟩

theorem violates_of_judge {e : Event} (h : judge bs s = some e)
    (he : e.isViolation = true) : ∀ b ∈ bs, Violates s b := by
  have hsays : Says bs s [e] := says_iff.mpr (by rw [h]; rfl)
  cases hsays with
  | violated hall => exact hall
  | satisfied _ _ _ _ => cases he

/-- What the joined findings have against a subject, every branch has. -/
theorem violates_of_mem_merge {event : Event} (hevent : event ∈ merge bs)
    (hv : event.outcome = .violated) : ∀ b ∈ bs, Violates event.subject b := by
  obtain ⟨s, -, hs⟩ := List.mem_filterMap.mp hevent
  rw [subject_of_judge hs]
  exact violates_of_judge hs (by rw [Event.isViolation, hv]; rfl)

theorem about_merge_of_ne_nil (hbs : bs ≠ []) (s : Subject) :
    about s (merge bs) = (judge bs s).toList := by
  by_cases hs : s ∈ subjects bs
  · exact about_merge hs
  · rcases hj : judge bs s with - | e
    · apply List.filter_eq_nil_iff.mpr
      intro e he heq
      have hmem : e.subject ∈ (merge bs).map (·.subject) := List.mem_map_of_mem he
      rw [map_subject_merge] at hmem
      rw [beq_iff_eq] at heq
      exact hs (heq ▸ List.mem_of_mem_filter hmem)
    · exact absurd (mem_subjects_of_judge hbs hj) hs

/-- Of a branch that holds one event about a subject, or none, that event is
the judgement. -/
theorem judge_singleton {x : Option Event} (hx : ∀ e, x = some e → e.subject = s)
    (hb : about s b = x.toList) : judge [b] s = x := by
  rcases x with - | ⟨s', outcome, message⟩
  · simp [judge_eq, hb, satisfaction?, firstSatisfied?]
  · obtain rfl : s' = s := hx _ rfl
    cases outcome with
    | violated =>
      simp [judge_eq, hb, Event.isViolation, violationMessages, Event.violations,
        Event.violated]
    | satisfied =>
      simp [judge_eq, hb, Event.isViolation, satisfaction?, firstSatisfied?,
        Event.satisfied]

/-- Joining changes no judgement. -/
theorem judge_merge (hbs : bs ≠ []) (s : Subject) : judge [merge bs] s = judge bs s :=
  judge_singleton (fun _ he => subject_of_judge he) (about_merge_of_ne_nil hbs s)

/-! ### The order of subjects -/

theorem subjects_merge (bs : List (List Event)) :
    subjects [merge bs] = (subjects bs).filter fun s => (judge bs s).isSome := by
  have hnodup : ((merge bs).map (·.subject)).Nodup := by
    rw [map_subject_merge]
    exact (nodup_subjects bs).filter _
  rw [subjects, List.flatten_singleton, firstSeen_of_nodup hnodup, map_subject_merge]

/-- Of subjects that come up in a first lot of branches, the order is theirs. -/
theorem filter_subjects_append {p : Subject → Bool}
    (hp : ∀ s, p s = true → s ∈ subjects bs) (bs' : List (List Event)) :
    (subjects (bs ++ bs')).filter p = (subjects bs).filter p := by
  simp only [subjects, firstSeen_eq_eraseDups, List.mem_eraseDups] at hp ⊢
  rw [List.flatten_append, List.map_append, List.eraseDups_append, List.filter_append]
  have hnone : ((bs'.flatten.map (·.subject)).removeAll
      (bs.flatten.map (·.subject))).eraseDups.filter p = [] := by
    apply List.filter_eq_nil_iff.mpr
    intro s hs hps
    rw [List.mem_eraseDups, List.removeAll, List.mem_filter,
      List.elem_eq_true_of_mem (hp s hps)] at hs
    exact Bool.false_ne_true hs.2
  rw [hnone, List.append_nil]

theorem mem_subjects_of_violates (h : Violates s b) (hb : b ∈ bs) : s ∈ subjects bs := by
  obtain ⟨e, he, hs, -⟩ := h
  exact mem_subjects_iff.mpr ⟨b, hb, e, he, hs⟩

/-- The subjects of which there is something to say. -/
theorem mem_filter_judge (hbs : bs ≠ []) :
    s ∈ (subjects bs).filter (fun s => (judge bs s).isSome)
      ↔ (judge bs s).isSome = true := by
  rw [List.mem_filter, and_iff_right_iff_imp]
  intro hsome
  obtain ⟨e, he⟩ := Option.isSome_iff_exists.mp hsome
  exact mem_subjects_of_judge hbs he

theorem merge_eq_filterMap (bs : List (List Event)) :
    merge bs = ((subjects bs).filter fun s =>
      (judge bs s).isSome).filterMap (judge bs) := by
  rw [merge, List.filterMap_filter]
  congr 1
  funext s
  rcases judge bs s with - | e <;> rfl

theorem violations_merge (bs : List (List Event)) :
    Event.violations (merge bs) = ((subjects bs).filter fun s =>
      (judge bs s).any Event.isViolation).filterMap (judge bs) := by
  rw [Event.violations, merge, List.filter_filterMap, List.filterMap_filter]
  congr 1
  funext s
  rcases judge bs s with - | e
  · rfl
  · rw [Option.filter_some, Option.any_some]

/-! ### Findings that stand for branches -/

/-- As one branch, the findings say what the branches say together, and have the
subjects that all of them violate in the same order. -/
structure Condenses (found : List Event) (bs : List (List Event)) : Prop where
  judge_eq : ∀ s, judge [found] s = judge bs s
  order_eq : ∀ p : Subject → Bool, (∀ s, p s = true → ∀ b ∈ bs, Violates s b) →
    (subjects [found]).filter p = (subjects bs).filter p

theorem condenses_self (b : List Event) : Condenses b [b] :=
  ⟨fun _ => rfl, fun _ _ => rfl⟩

section Condenses

variable {f f' : List Event}

theorem Condenses.violates (h : Condenses f bs) (hs : ∀ b ∈ bs, Violates s b) :
    Violates s f := by
  have hjudge := (h.judge_eq s).trans (judge_of_unanimous hs)
  exact violates_of_judge hjudge rfl f List.mem_cons_self

/-- What all branches violate comes up in the first of them already. -/
theorem Condenses.order_pair (h : Condenses f bs) (hbs : bs ≠ []) {p : Subject → Bool}
    (hp : ∀ s, p s = true → ∀ b ∈ bs ++ bs', Violates s b) :
    (subjects [f, f']).filter p = (subjects (bs ++ bs')).filter p := by
  have hfirst : ∀ s, p s = true → ∀ b ∈ bs, Violates s b :=
    fun s hs b hb => hp s hs b (List.mem_append_left bs' hb)
  obtain ⟨b, hb⟩ := List.exists_mem_of_ne_nil bs hbs
  calc (subjects ([f] ++ [f'])).filter p
      = (subjects [f]).filter p := by
        apply filter_subjects_append
        intro s hs
        exact mem_subjects_of_violates (h.violates (hfirst s hs)) List.mem_cons_self
    _ = (subjects bs).filter p := h.order_eq p hfirst
    _ = (subjects (bs ++ bs')).filter p := by
        rw [filter_subjects_append]
        intro s hs
        exact mem_subjects_of_violates (hfirst s hs b hb) hb

variable (h : Condenses f bs) (h' : Condenses f' bs') (hbs : bs ≠ [])
  (hbs' : bs' ≠ [])

include h h' hbs hbs'

theorem Condenses.judge_pair : judge [f, f'] = judge (bs ++ bs') := by
  funext s
  have hpair : judge ([f] ++ [f']) s = reconcile (judge [f] s) (judge [f'] s) :=
    judge_append (List.cons_ne_nil _ _) (List.cons_ne_nil _ _) s
  rw [judge_append hbs hbs', ← h.judge_eq, ← h'.judge_eq]
  exact hpair

/-- Joining two lots of findings stands for joining all that they stand for. -/
theorem Condenses.join : Condenses (merge [f, f']) (bs ++ bs') where
  judge_eq s := by
    rw [judge_merge (List.cons_ne_nil _ _), h.judge_pair h' hbs hbs']
  order_eq p hp := by
    rw [subjects_merge, List.filter_filter, ← h.order_pair hbs hp]
    apply List.filter_congr
    intro s _
    rcases hps : p s with - | -
    · rfl
    · -- of what all branches violate there is something to say
      rw [h.judge_pair h' hbs hbs', judge_of_unanimous (hp s hps)]
      rfl

/-- The joined findings have the violations that joining all branches at once
gives, in the same order. -/
theorem Condenses.violations_eq :
    Event.violations (merge [f, f']) = Event.violations (merge (bs ++ bs')) := by
  rw [violations_merge, violations_merge, h.judge_pair h' hbs hbs']
  congr 1
  apply h.order_pair hbs
  intro s hs
  obtain ⟨e, he, hv⟩ := (Option.any_eq_true _ _).mp hs
  exact violates_of_judge he hv

/-- The joined findings are those of all branches joined at once, perhaps in
another order. -/
theorem Condenses.merge_perm : (merge [f, f']).Perm (merge (bs ++ bs')) := by
  -- what there is something to say of comes up on either side
  have hsubjects : ((subjects [f, f']).filter fun s => (judge [f, f'] s).isSome).Perm
      ((subjects (bs ++ bs')).filter fun s => (judge (bs ++ bs') s).isSome) := by
    apply (List.perm_ext_iff_of_nodup ((nodup_subjects _).filter _)
      ((nodup_subjects _).filter _)).mpr
    intro s
    rw [mem_filter_judge (List.cons_ne_nil _ _),
      mem_filter_judge (List.append_ne_nil_of_left_ne_nil hbs _),
      h.judge_pair h' hbs hbs']
  rw [merge_eq_filterMap, merge_eq_filterMap, ← h.judge_pair h' hbs hbs']
  rw [← h.judge_pair h' hbs hbs'] at hsubjects
  exact hsubjects.filterMap _

end Condenses

end Alternatives

/-! ### Either of two conditions -/

namespace Condition

open Check

variable {m : CodeModel} {e : Element}

/-- Either condition is checked by itself, the second one only if the first has
ended; what was collected before stays as it is if one of them breaks off. -/
theorem runFrom_or (c d : Condition) (m : CodeModel) (e : Element)
    (events : List Event) :
    ((Condition.or c d).check m e).runFrom events
      = match (c.findings m e).fault.or (d.findings m e).fault with
        | some fault => (.error fault, events)
        | none => (.ok (), events ++ Alternatives.merge
            [(c.findings m e).events, (d.findings m e).events]) := by
  rw [check, runFrom_bind, runFrom_aside, findings]
  rcases (c.check m e).runFrom [] with ⟨fault | -, found⟩
  · -- what the second would find is not asked for
    rfl
  · show runFrom events _ = _
    rw [runFrom_bind, runFrom_aside, findings]
    rcases (d.check m e).runFrom [] with ⟨fault | -, found'⟩
    · rfl
    · rfl

theorem fault_or (c d : Condition) (m : CodeModel) (e : Element) :
    ((Condition.or c d).findings m e).fault
      = (c.findings m e).fault.or (d.findings m e).fault := by
  rw [findings, runFrom_or]
  rcases (c.findings m e).fault.or (d.findings m e).fault with - | fault <;> rfl

theorem events_or {c d : Condition} (hc : (c.findings m e).fault = none)
    (hd : (d.findings m e).fault = none) :
    ((Condition.or c d).findings m e).events = Alternatives.merge
      [(c.findings m e).events, (d.findings m e).events] := by
  rw [findings, runFrom_or, hc, hd]
  rfl

end Condition

/-! ### Bracketings -/

/-- A way to join conditions by `or`, two at a time. -/
inductive Bracketing where
  | single (c : Condition)
  | join (left right : Bracketing)

namespace Bracketing

open Alternatives

variable {m : CodeModel} {e : Element}

/-- The condition that is written with these brackets. -/
def condition : Bracketing → Condition
  | single c => c
  | join left right => .or left.condition right.condition

/-- The conditions that are joined, from left to right. -/
def alternatives : Bracketing → List Condition
  | single c => [c]
  | join left right => left.alternatives ++ right.alternatives

theorem alternatives_ne_nil (t : Bracketing) : t.alternatives ≠ [] := by
  induction t with
  | single c => exact List.cons_ne_nil _ _
  | join left right ihl _ => exact List.append_ne_nil_of_left_ne_nil ihl _

/-- What each of the joined conditions finds by itself. -/
def branches (m : CodeModel) (e : Element) (t : Bracketing) : List (List Event) :=
  t.alternatives.map fun c => (c.findings m e).events

theorem branches_ne_nil (m : CodeModel) (e : Element) (t : Bracketing) :
    t.branches m e ≠ [] := by
  rw [branches, Ne, List.map_eq_nil_iff]
  exact t.alternatives_ne_nil

theorem branches_join (m : CodeModel) (e : Element) (left right : Bracketing) :
    (join left right).branches m e = left.branches m e ++ right.branches m e :=
  List.map_append

/-- Brackets do not show in words. -/
theorem description_condition (t : Bracketing) :
    t.condition.description
      = " or ".intercalate (t.alternatives.map (·.description)) := by
  induction t with
  | single c => simp [condition, alternatives]
  | join left right ihl ihr =>
    have hleft : left.alternatives.map (·.description) ≠ [] := by
      simpa using left.alternatives_ne_nil
    have hright : right.alternatives.map (·.description) ≠ [] := by
      simpa using right.alternatives_ne_nil
    show left.condition.description ++ " or " ++ right.condition.description = _
    rw [alternatives, List.map_append, String.intercalate_append_of_ne_nil hleft hright,
      ← ihl, ← ihr]

/-- The first alternative that breaks off decides. -/
theorem fault_condition (m : CodeModel) (e : Element) (t : Bracketing) :
    (t.condition.findings m e).fault
      = t.alternatives.findSome? fun c => (c.findings m e).fault := by
  induction t with
  | single c => simp [condition, alternatives]
  | join left right ihl ihr =>
    rw [condition, Condition.fault_or, alternatives, List.findSome?_append, ihl, ihr]

theorem fault_condition_eq_none_iff {t : Bracketing} :
    (t.condition.findings m e).fault = none
      ↔ ∀ c ∈ t.alternatives, (c.findings m e).fault = none := by
  rw [fault_condition, List.findSome?_eq_none_iff]

theorem events_join {left right : Bracketing}
    (h : ∀ c ∈ (join left right).alternatives, (c.findings m e).fault = none) :
    ((join left right).condition.findings m e).events
      = merge [(left.condition.findings m e).events,
          (right.condition.findings m e).events] := by
  obtain ⟨hleft, hright⟩ := List.forall_mem_append.mp h
  exact Condition.events_or (fault_condition_eq_none_iff.mpr hleft)
    (fault_condition_eq_none_iff.mpr hright)

/-- If no alternative breaks off, what is found stands for what they find. -/
theorem condenses {t : Bracketing}
    (h : ∀ c ∈ t.alternatives, (c.findings m e).fault = none) :
    Condenses (t.condition.findings m e).events (t.branches m e) := by
  induction t with
  | single c =>
    show Condenses (c.findings m e).events [(c.findings m e).events]
    exact condenses_self _
  | join left right ihl ihr =>
    obtain ⟨hleft, hright⟩ := List.forall_mem_append.mp h
    rw [events_join h, branches_join]
    exact (ihl hleft).join (ihr hright) (left.branches_ne_nil m e)
      (right.branches_ne_nil m e)

/-- Where there are brackets, two lots of alternatives are joined by the
outermost ones. -/
theorem exists_eq_join {t : Bracketing} (ht : 2 ≤ t.alternatives.length) :
    ∃ left right, t = join left right := by
  cases t with
  | single c => exact absurd ht (by simp [alternatives])
  | join left right => exact ⟨left, right, rfl⟩

theorem runFrom_of_fault {t : Bracketing} (ht : 2 ≤ t.alternatives.length)
    {fault : Inconsistency}
    (h : t.alternatives.findSome? (fun c => (c.findings m e).fault) = some fault)
    (events : List Event) :
    (t.condition.check m e).runFrom events = (.error fault, events) := by
  obtain ⟨left, right, rfl⟩ := exists_eq_join ht
  rw [← fault_condition, condition, Condition.fault_or] at h
  rw [condition, Condition.runFrom_or, h]

/-- What is found is what joining all findings at once gives, and the violations
come in the same order. -/
theorem findings_alike {t : Bracketing} (ht : 2 ≤ t.alternatives.length)
    (h : ∀ c ∈ t.alternatives, (c.findings m e).fault = none) :
    Event.violations (t.condition.findings m e).events
        = Event.violations (merge (t.branches m e))
      ∧ (t.condition.findings m e).events.Perm (merge (t.branches m e)) := by
  obtain ⟨left, right, rfl⟩ := exists_eq_join ht
  obtain ⟨hleft, hright⟩ := List.forall_mem_append.mp h
  have hl := left.branches_ne_nil m e
  have hr := right.branches_ne_nil m e
  rw [events_join h, branches_join]
  exact ⟨(condenses hleft).violations_eq (condenses hright) hl hr,
    (condenses hleft).merge_perm (condenses hright) hl hr⟩

end Bracketing

/-! ### Reports -/

theorem Event.violations_flatMap {α : Type} (as : List α) (f : α → List Event) :
    violations (as.flatMap f) = as.flatMap fun a => violations (f a) :=
  List.filter_flatMap

/-- A report shows the rule, its priority and the violations. -/
theorem Verdict.report_congr {v v' : Verdict} (hrule : v.rule = v'.rule)
    (hpriority : v.priority = v'.priority) (h : v.violations = v'.violations) :
    v.report = v'.report := by
  have hcount : v.violationCount = v'.violationCount := congrArg List.length h
  unfold report passed
  rw [hrule, hpriority, hcount, h]

/-- Rules that differ in their conditions only report the same, if the
conditions break off alike and find the same violations. -/
theorem Rule.report_congr (r : Rule) {c c' : Condition} {m : CodeModel}
    (hfault : ∀ e, (c.findings m e).fault = (c'.findings m e).fault)
    (hviolations : ∀ e, (c.findings m e).fault = none →
      Event.violations (c.findings m e).events
        = Event.violations (c'.findings m e).events) (config : Config) :
    ({ r with condition := c }.evaluate m config).map Verdict.report
      = ({ r with condition := c' }.evaluate m config).map Verdict.report := by
  obtain ⟨result, hresult⟩ := exists_comesTo { r with condition := c } m config
  have hevaluate := hresult.evaluate_eq
  cases hresult with
  | broken hsubjects hbefore hbreaks =>
    -- the other condition breaks off on the same element
    have hresult' : ComesTo { r with condition := c' } m config _ :=
      .broken hsubjects (fun e he => (hfault e).symm.trans (hbefore e he))
        ((hfault _).symm.trans hbreaks)
    rw [hevaluate, hresult'.evaluate_eq]
    rfl
  | empty hsubjects hforbidden =>
    have hresult' : ComesTo { r with condition := c' } m config _ :=
      .empty hsubjects hforbidden
    rw [hevaluate, hresult'.evaluate_eq]
    rfl
  | verdict hcomplete hallowed hsums =>
    have hresult' : ComesTo { r with condition := c' } m config _ :=
      .verdict (fun e he => (hfault e).symm.trans (hcomplete e he)) hallowed
        (sumsUp_tally _ m config)
    rw [hevaluate, hresult'.evaluate_eq, hsums.eq_tally]
    refine congrArg Except.ok (Verdict.report_congr rfl rfl ?_)
    show Event.violations (List.flatMap _ _) = Event.violations (List.flatMap _ _)
    rw [Event.violations_flatMap, Event.violations_flatMap]
    apply List.flatMap_congr
    intro e he
    exact hviolations e (hcomplete e he)

/-! ### Brackets do not matter -/

namespace Bracketing

open Alternatives

/-- **How alternatives are bracketed makes no difference.**  Let two or more
conditions be joined by `or`, in whatever brackets, and checked on whatever
element.  If some of them break off, the first that does decides, and no event
is added.  If none does, the violations are those of joining what each finds by
itself, in the same order, and the satisfactions are the same but for their
order; a subject is violated only if every alternative violates it.  Rules whose
conditions differ only in brackets are described alike and report alike. -/
theorem brackets_irrelevant (t : Bracketing) (ht : 2 ≤ t.alternatives.length)
    (m : CodeModel) (e : Element) :
    (∀ before c after fault, t.alternatives = before ++ c :: after →
      (∀ c' ∈ before, (c'.findings m e).fault = none) →
      (c.findings m e).fault = some fault →
      ∀ events, (t.condition.check m e).runFrom events = (.error fault, events))
    ∧ ((∀ c ∈ t.alternatives, (c.findings m e).fault = none) →
      ∃ found, (∀ events, (t.condition.check m e).runFrom events
          = (.ok (), events ++ found))
        ∧ Event.violations found = Event.violations
          (merge (t.alternatives.map fun c => (c.findings m e).events))
        ∧ (found.filter fun event => event.outcome == .satisfied).Perm
          ((merge (t.alternatives.map fun c => (c.findings m e).events)).filter
            fun event => event.outcome == .satisfied)
        ∧ ∀ event ∈ found, event.outcome = .violated →
          ∀ c ∈ t.alternatives, ∃ event' ∈ (c.findings m e).events,
            event'.subject = event.subject ∧ event'.outcome = .violated)
    ∧ ∀ t' : Bracketing, t'.alternatives = t.alternatives →
      t'.condition.description = t.condition.description
      ∧ ∀ (r : Rule) (config : Config),
        ({ r with condition := t'.condition }.evaluate m config).map Verdict.report
          = ({ r with condition := t.condition }.evaluate m config).map
            Verdict.report := by
  refine ⟨?_, ?_, ?_⟩
  · intro before c after fault hcs hbefore hc events
    have hfirst : t.alternatives.findSome? (fun c => (c.findings m e).fault)
        = some fault :=
      List.findSome?_eq_some_iff.mpr ⟨before, c, after, hcs, hc, hbefore⟩
    exact runFrom_of_fault ht hfirst events
  · intro h
    obtain ⟨hviolations, hperm⟩ := findings_alike ht h
    refine ⟨(t.condition.findings m e).events,
      Condition.yields_findings (fault_condition_eq_none_iff.mpr h), hviolations,
      hperm.filter _, ?_⟩
    intro event hevent hviolated c hc
    exact violates_of_mem_merge (hperm.mem_iff.mp hevent) hviolated _
      (List.mem_map_of_mem hc)
  · intro t' ht'
    refine ⟨?_, fun r config => ?_⟩
    · rw [description_condition, description_condition, ht']
    · refine r.report_congr (fun e => ?_) (fun e he => ?_) config
      · rw [fault_condition, fault_condition, ht']
      · have h := fault_condition_eq_none_iff.mp he
        rw [(findings_alike (ht' ▸ ht) h).1, (findings_alike ht (ht' ▸ h)).1, branches,
          branches, ht']

/-- A single condition that finds the same on every element. -/
def always (found : Findings) : Bracketing :=
  .single (.custom "be agreed on" fun _ _ => found)

/-- Three alternatives, the first two of them in brackets. -/
def dispute (second : Findings) : Bracketing :=
  .join
    (.join (always { events := [.violated (.element 0) "a", .violated (.edge 0) "b"] })
      (always second))
    (always { events := [.satisfied (.edge 0) "c", .violated (.element 0) "d"] })

/-- The element they are checked on. -/
def party : Element where
  id := 0
  kind := .type
  name := "A"
  fullName := "a.A"

/-- All three violate element 0, and the edge is passed over in the brackets; if
the second breaks off, its event is dropped with the others. -/
theorem dispute_brackets_irrelevant :
    (∃ found, (∀ events,
        ((dispute { events := [.violated (.element 0) "e"] }).condition.check
          CodeBase.empty.model party).runFrom events
            = (.ok (), events ++ found))
      ∧ Event.violations found = [.violated (.element 0) "a and e and d"])
    ∧ ((dispute { events := [.violated (.element 0) "e"],
                  fault := some (.unknownElement 7) }).condition.check
        CodeBase.empty.model party).runFrom [.satisfied (.edge 1) "f"]
      = (.error (.unknownElement 7), [.satisfied (.edge 1) "f"]) := by
  constructor
  · obtain ⟨-, h, -⟩ := brackets_irrelevant
      (dispute { events := [.violated (.element 0) "e"] }) (by decide)
      CodeBase.empty.model party
    obtain ⟨found, hrun, hviolations, -⟩ := h (by decide)
    exact ⟨found, hrun, hviolations.trans (by decide)⟩
  · obtain ⟨h, -⟩ := brackets_irrelevant
      (dispute { events := [.violated (.element 0) "e"],
                 fault := some (.unknownElement 7) }) (by decide)
      CodeBase.empty.model party
    exact h [_] _ [_] _ rfl (by decide) rfl _

end Bracketing

end Conformance
