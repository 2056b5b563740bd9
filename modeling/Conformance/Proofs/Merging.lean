/-
Conformance/Proofs/Merging.lean

What alternatives say together, subject by subject.

Joining the findings of alternatives goes through all subjects in the order in
which they first come up, and judges each of them by itself.  So the outcome is
known once it is known of every subject, and that is said here without the
joining: `Says branches s found` tells from the events of the branches what is
found about `s`, by three rules that exclude each other.

* Every branch violates `s`: one violation, with all their messages.
* Some branch accepts `s`, i.e. finds it satisfied and nothing against it: one
  satisfaction, with the message that the first such branch gives first.
* Otherwise nothing.

To judge a subject, the branches are heard one after the other.  What has come out
at the end is known from all branches at once (`foldl_hear`), and so is the
judgement (`judge_eq`).

The main lemma is `about_merge`: of the joined findings, those about `s` are
what judging `s` gives.  It rests on the subjects being gone through once each
(`firstSeen_eq_eraseDups`, `nodup_subjects`).
-/
import Mathlib.Data.List.Nodup
import Conformance.Condition.Alternatives

namespace Conformance

/-! ### Each entry where it first stands -/

section FirstSeen

variable {α : Type} [BEq α] [LawfulBEq α]

theorem firstSeenBy_eq_eraseDups (seen as : List α) :
    firstSeenBy (fun a => a) seen as
      = (as.filter fun a => !seen.contains a).eraseDups := by
  induction as generalizing seen with
  | nil => rfl
  | cons a as ih =>
    rw [firstSeenBy]
    by_cases ha : seen.contains a = true
    · rw [if_pos ha, ih, List.filter_cons_of_neg (by simpa using ha)]
    · rw [if_neg ha, ih, List.filter_cons_of_pos (by simpa using ha),
        List.eraseDups_cons, List.filter_filter]
      -- what is seen from here on is what was seen, and `a`
      congr 2
      apply List.filter_congr
      intro x _
      simp only [List.contains_cons, Bool.not_or]

theorem firstSeen_eq_eraseDups (as : List α) : firstSeen as = as.eraseDups := by
  have hall : as.filter (fun a => !([] : List α).contains a) = as := by
    simp
  rw [firstSeen, firstSeenBy_eq_eraseDups, hall]

theorem nodup_firstSeenBy (seen as : List α) :
    (firstSeenBy (fun a => a) seen as).Nodup := by
  induction as generalizing seen with
  | nil => exact List.nodup_nil
  | cons a as ih =>
    rw [firstSeenBy]
    split
    · exact ih seen
    · -- the entry just kept counts as seen, so it does not come again
      refine List.nodup_cons.mpr ⟨?_, ih (a :: seen)⟩
      rw [mem_firstSeenBy_self]
      exact fun h => h.2 List.mem_cons_self

theorem firstSeen_of_nodup {as : List α} (h : as.Nodup) : firstSeen as = as := by
  rw [firstSeen_eq_eraseDups]
  induction as with
  | nil => rfl
  | cons a as ih =>
    obtain ⟨hnew, hrest⟩ := List.nodup_cons.mp h
    have hfilter : as.filter (fun x => !x == a) = as := by
      apply List.filter_eq_self.mpr
      intro x hx
      simp only [Bool.not_eq_true', beq_eq_false_iff_ne]
      rintro rfl
      exact hnew hx
    rw [List.eraseDups_cons, hfilter, ih hrest]

end FirstSeen

namespace Alternatives

variable {bs : List (List Event)} {b : List Event} {s : Subject}

/-! ### Hearing the branches one after the other -/

/-- The message of the first satisfaction that a branch finds, if it finds no
violation. -/
def satisfaction? (events : List Event) : Option String :=
  if events.any Event.isViolation then none else firstSatisfied? events

theorem isEmpty_violationMessages (events : List Event) :
    (violationMessages events).isEmpty = !events.any Event.isViolation := by
  rw [Bool.eq_iff_iff]
  simp [violationMessages, Event.violations]

theorem hear_of_violation (heard : Hearing) {events : List Event}
    (h : events.any Event.isViolation = true) :
    heard.hear events
      = { heard with violated := heard.violated ++ violationMessages events } := by
  rw [Hearing.hear, isEmpty_violationMessages, h]
  rfl

theorem hear_of_no_violation (heard : Hearing) {events : List Event}
    (h : events.any Event.isViolation = false) :
    heard.hear events
      = { heard with
          allViolated := false
          satisfied := heard.satisfied.or (satisfaction? events) } := by
  rw [Hearing.hear, isEmpty_violationMessages, satisfaction?, h]
  rcases heard with ⟨violated, - | message, allViolated⟩ <;> rfl

/-- What has come out once all have been heard, in terms of all of them. -/
theorem foldl_hear (heard : Hearing) (findings : List (List Event)) :
    findings.foldl Hearing.hear heard
      = { violated := heard.violated ++ findings.flatMap violationMessages
          satisfied := heard.satisfied.or (findings.findSome? satisfaction?)
          allViolated := heard.allViolated && findings.all (·.any Event.isViolation) } := by
  induction findings generalizing heard with
  | nil => simp
  | cons events findings ih =>
    rw [List.foldl_cons, ih, List.flatMap_cons, List.findSome?_cons, List.all_cons]
    by_cases hv : events.any Event.isViolation = true
    · -- a branch with a violation accepts nothing
      have hnone : satisfaction? events = none := by rw [satisfaction?, if_pos hv]
      rw [hear_of_violation heard hv, hnone, hv, List.append_assoc, Bool.true_and]
    · -- a branch without one has no messages to add
      rw [Bool.not_eq_true] at hv
      have hmessages : violationMessages events = [] := by
        rw [← List.isEmpty_iff, isEmpty_violationMessages, hv]
        rfl
      rw [hear_of_no_violation heard hv, hmessages, hv, Option.or_assoc]
      rcases satisfaction? events with - | message <;> simp

theorem judge_eq (bs : List (List Event)) (s : Subject) :
    judge bs s =
      if (bs.map (about s)).all (·.any Event.isViolation) then
        some (.violated s
          (" and ".intercalate ((bs.map (about s)).flatMap violationMessages)))
      else ((bs.map (about s)).findSome? satisfaction?).map (.satisfied s) := by
  have hheard := foldl_hear {} (bs.map (about s))
  rw [List.foldl_map] at hheard
  rw [judge, hheard]
  simp

/-! ### What alternatives say of a subject -/

/-- The branch finds that the subject violates it. -/
def Violates (s : Subject) (b : List Event) : Prop :=
  ∃ e ∈ b, e.subject = s ∧ e.outcome = .violated

/-- The branch finds that the subject satisfies it, and nothing against that. -/
def Accepts (s : Subject) (b : List Event) : Prop :=
  ¬ Violates s b ∧ ∃ e ∈ b, e.subject = s ∧ e.outcome = .satisfied

/-- The messages of all violations of a subject, branch after branch. -/
def objections (bs : List (List Event)) (s : Subject) : List String :=
  (bs.flatten.filter fun e => e.subject == s && e.outcome == .violated).map
    (·.message)

/-- What the branches together find about a subject. -/
inductive Says (bs : List (List Event)) (s : Subject) : List Event → Prop where
  /-- Every branch is violated, and all of them are heard. -/
  | violated (unanimous : ∀ b ∈ bs, Violates s b) :
      Says bs s [.violated s (" and ".intercalate (objections bs s))]
  /-- A branch accepts the subject, and the first one that does is heard. -/
  | satisfied {before after : List (List Event)} {b : List Event} {e : Event}
      (branches_eq : bs = before ++ b :: after)
      (earlier : ∀ b' ∈ before, ¬ Accepts s b') (accepts : Accepts s b)
      (first : b.find? (fun e => e.subject == s && e.outcome == .satisfied)
        = some e) :
      Says bs s [.satisfied s e.message]
  /-- Not every branch is violated, and none accepts the subject. -/
  | silent (dissent : ∃ b ∈ bs, ¬ Violates s b)
      (nobody : ∀ b ∈ bs, ¬ Accepts s b) : Says bs s []

/-! ### One branch -/

theorem any_about_iff : (about s b).any Event.isViolation = true ↔ Violates s b := by
  simp only [about, List.any_eq_true, List.mem_filter, beq_iff_eq,
    Event.isViolation, Violates, and_assoc]

theorem satisfaction?_about (s : Subject) (b : List Event) :
    satisfaction? (about s b) = if (about s b).any Event.isViolation then none
      else (b.find? fun e => e.subject == s && e.outcome == .satisfied).map
        (·.message) := by
  have hfind : (about s b).find? (fun e => e.outcome == .satisfied)
      = b.find? fun e => e.subject == s && e.outcome == .satisfied := by
    rw [about, List.find?_filter]
    simp only [Bool.decide_and, Bool.decide_eq_true]
  rw [satisfaction?, firstSatisfied?, hfind]

theorem satisfaction?_eq_none_iff :
    satisfaction? (about s b) = none ↔ ¬ Accepts s b := by
  rw [satisfaction?_about]
  by_cases hv : Violates s b
  · simp [any_about_iff.mpr hv, Accepts, hv]
  · rw [if_neg (mt any_about_iff.mp hv), Option.map_eq_none_iff,
      List.find?_eq_none]
    simp [Accepts, hv]

theorem satisfaction?_of_accepts {e : Event} (h : Accepts s b)
    (he : b.find? (fun e => e.subject == s && e.outcome == .satisfied) = some e) :
    satisfaction? (about s b) = some e.message := by
  rw [satisfaction?_about, if_neg (mt any_about_iff.mp h.1), he]
  rfl

/-- A branch that accepts a subject has a first event that says so. -/
theorem Accepts.exists_find? (h : Accepts s b) :
    ∃ e, b.find? (fun e => e.subject == s && e.outcome == .satisfied) = some e := by
  obtain ⟨e, he, hs, ho⟩ := h.2
  rw [← Option.isSome_iff_exists, List.find?_isSome]
  exact ⟨e, he, by simp [hs, ho]⟩

/-! ### All branches -/

theorem flatMap_violationMessages (bs : List (List Event)) (s : Subject) :
    (bs.map (about s)).flatMap violationMessages = objections bs s := by
  have hbranch : ∀ b : List Event, violationMessages (about s b)
      = (b.filter fun e => e.subject == s && e.outcome == .violated).map
        (·.message) := by
    intro b
    rw [violationMessages, Event.violations, about, List.filter_filter]
    congr 1
    apply List.filter_congr
    intro e _
    exact Bool.and_comm _ _
  rw [List.flatMap_map, objections, List.filter_flatten, List.map_flatten,
    List.map_map, List.flatMap_def]
  simp only [hbranch, Function.comp_def]

theorem judge_of_unanimous (h : ∀ b ∈ bs, Violates s b) :
    judge bs s
      = some (.violated s (" and ".intercalate (objections bs s))) := by
  have hall : (bs.map (about s)).all (·.any Event.isViolation) = true := by
    rw [List.all_map, List.all_eq_true]
    exact fun b hb => any_about_iff.mpr (h b hb)
  simp only [judge_eq, hall, if_true, flatMap_violationMessages]

theorem judge_of_dissent (h : ∃ b ∈ bs, ¬ Violates s b) :
    judge bs s = (bs.findSome? fun b => satisfaction? (about s b)).map
      (.satisfied s) := by
  have hall : ¬ (bs.map (about s)).all (·.any Event.isViolation) = true := by
    rw [List.all_map, List.all_eq_true]
    obtain ⟨b, hb, hv⟩ := h
    exact fun hall => hv (any_about_iff.mp (hall b hb))
  simp only [judge_eq, hall, List.findSome?_map]
  rfl

/-- Judging a subject gives what the branches say of it. -/
theorem Says.eq_toList_judge {found : List Event} (h : Says bs s found) :
    found = (judge bs s).toList := by
  cases h with
  | violated hall =>
    rw [judge_of_unanimous hall]
    rfl
  | @satisfied before after b e hbs hearlier haccepts hfirst =>
    have hb : b ∈ bs := by simp [hbs]
    have hsome : bs.findSome? (fun b => satisfaction? (about s b))
        = some e.message := by
      rw [List.findSome?_eq_some_iff]
      refine ⟨before, b, after, hbs, satisfaction?_of_accepts haccepts hfirst, ?_⟩
      exact fun b' hb' => satisfaction?_eq_none_iff.mpr (hearlier b' hb')
    rw [judge_of_dissent ⟨b, hb, haccepts.1⟩, hsome]
    rfl
  | silent hdissent hnobody =>
    have hnone : bs.findSome? (fun b => satisfaction? (about s b)) = none := by
      rw [List.findSome?_eq_none_iff]
      exact fun b hb => satisfaction?_eq_none_iff.mpr (hnobody b hb)
    rw [judge_of_dissent hdissent, hnone]
    rfl

/-- The branches say something of every subject, be it nothing. -/
theorem exists_says (bs : List (List Event)) (s : Subject) :
    ∃ found, Says bs s found := by
  by_cases hall : ∀ b ∈ bs, Violates s b
  · exact ⟨_, .violated hall⟩
  · have hdissent : ∃ b ∈ bs, ¬ Violates s b := by simpa using hall
    rcases hsome : bs.findSome? (fun b => satisfaction? (about s b)) with - | message
    · rw [List.findSome?_eq_none_iff] at hsome
      exact ⟨_, .silent hdissent fun b hb => satisfaction?_eq_none_iff.mp (hsome b hb)⟩
    · -- the first branch with a message is the first that accepts the subject
      obtain ⟨before, b, after, hbs, hb, hbefore⟩ := List.findSome?_eq_some_iff.mp hsome
      have haccepts : Accepts s b := by
        by_contra hno
        rw [satisfaction?_eq_none_iff.mpr hno] at hb
        cases hb
      obtain ⟨e, he⟩ := haccepts.exists_find?
      refine ⟨_, .satisfied hbs ?_ haccepts he⟩
      exact fun b' hb' => satisfaction?_eq_none_iff.mp (hbefore b' hb')

theorem says_iff {found : List Event} :
    Says bs s found ↔ found = (judge bs s).toList := by
  refine ⟨Says.eq_toList_judge, ?_⟩
  rintro rfl
  obtain ⟨found, hfound⟩ := exists_says bs s
  rw [← hfound.eq_toList_judge]
  exact hfound

/-! ### Subject by subject -/

theorem nodup_subjects (bs : List (List Event)) : (subjects bs).Nodup :=
  nodup_firstSeenBy [] _

theorem mem_subjects_iff : s ∈ subjects bs ↔ ∃ b ∈ bs, ∃ e ∈ b, e.subject = s := by
  rw [subjects, firstSeen_eq_eraseDups, List.mem_eraseDups]
  simp only [List.mem_map, List.mem_flatten]
  constructor
  · rintro ⟨e, ⟨b, hb, he⟩, hs⟩
    exact ⟨b, hb, e, he, hs⟩
  · rintro ⟨b, hb, e, he, hs⟩
    exact ⟨e, ⟨b, hb, he⟩, hs⟩

/-- A judgement on a subject is about that subject. -/
theorem subject_of_judge {e : Event} (h : judge bs s = some e) : e.subject = s := by
  obtain ⟨found, hfound⟩ := exists_says bs s
  have htoList := hfound.eq_toList_judge
  rw [h] at htoList
  cases hfound with
  | violated _ => exact (List.head_eq_of_cons_eq htoList) ▸ rfl
  | satisfied _ _ _ _ => exact (List.head_eq_of_cons_eq htoList) ▸ rfl
  | silent _ _ => cases htoList

/-- The subjects of the joined findings are those of which there is something
to say. -/
theorem map_subject_merge (bs : List (List Event)) :
    (merge bs).map (·.subject)
      = (subjects bs).filter fun s => (judge bs s).isSome := by
  rw [merge, List.map_filterMap, ← List.filterMap_eq_filter]
  apply List.filterMap_congr
  intro s _
  rcases hj : judge bs s with - | e
  · simp [Option.guard, hj]
  · simp [Option.guard, hj, subject_of_judge hj]

/-- Of the joined findings, those about a subject are the judgement on it. -/
theorem about_merge (hs : s ∈ subjects bs) :
    about s (merge bs) = (judge bs s).toList := by
  -- a judgement on another subject is not about this one
  have hjudge : ∀ s', (judge bs s').filter (fun e => e.subject == s)
      = if (s' == s) = true then judge bs s' else none := by
    intro s'
    rcases hj : judge bs s' with - | e
    · simp
    · rw [Option.filter_some, subject_of_judge hj]
  calc about s (merge bs)
      = ((subjects bs).filter (· == s)).filterMap (judge bs) := by
        rw [about, merge, List.filter_filterMap, List.filterMap_filter]
        simp only [hjudge]
    _ = [s].filterMap (judge bs) := by
        rw [List.filter_beq, List.count_eq_one_of_mem (nodup_subjects bs) hs]
        rfl
    _ = (judge bs s).toList := by
        rcases hj : judge bs s with - | e <;> simp [hj]

/-- **Alternatives are joined subject by subject.**  Whatever events the
branches hold, the joined findings speak of each subject at most once, in the
order in which the branches first speak of it, and of every subject that a
branch speaks of they hold what the branches together say, and nothing else. -/
theorem merge_says (bs : List (List Event)) :
    ((merge bs).map (·.subject)).Nodup
    ∧ ((merge bs).map (·.subject)).Sublist
      (bs.flatten.map (·.subject)).eraseDups
    ∧ ∀ s, (∃ b ∈ bs, ∃ e ∈ b, e.subject = s) → ∀ found,
      (merge bs).filter (fun e => e.subject == s) = found ↔ Says bs s found := by
  refine ⟨?_, ?_, ?_⟩
  · rw [map_subject_merge]
    exact (nodup_subjects bs).filter _
  · rw [map_subject_merge, subjects, firstSeen_eq_eraseDups]
    exact List.filter_sublist
  · intro s hs found
    rw [says_iff]
    rw [show (merge bs).filter (fun e => e.subject == s) = about s (merge bs) from rfl,
      about_merge (mem_subjects_iff.mpr hs)]
    exact eq_comm

/-- Three branches, of which the second is silent on the edge and the third on
element 2. -/
def disputed : List (List Event) :=
  [[.violated (.element 0) "a", .satisfied (.edge 0) "b", .violated (.edge 0) "c",
      .violated (.element 2) "d", .satisfied (.element 0) "e", .violated (.element 0) "f"],
    [.violated (.element 0) "g", .violated (.element 2) "h"],
    [.satisfied (.edge 0) "i", .satisfied (.edge 0) "j", .violated (.element 0) "k"]]

/-- All branches violate element 0, the third accepts the edge, and nobody
accepts element 2. -/
theorem disputed_merge_says :
    Says disputed (.element 0) [.violated (.element 0) "a and f and g and k"]
    ∧ Says disputed (.edge 0) [.satisfied (.edge 0) "i"]
    ∧ Says disputed (.element 2) [] := by
  obtain ⟨-, -, h⟩ := merge_says disputed
  refine ⟨(h (.element 0) ?_ _).mp ?_, (h (.edge 0) ?_ _).mp ?_, (h (.element 2) ?_ _).mp ?_⟩
  · exact ⟨_, List.mem_cons_self, _, List.mem_cons_self, rfl⟩
  · decide
  · decide
  · decide
  · decide
  · decide

end Alternatives

end Conformance
