/-
Conformance/Proofs/Reports.lean

The report of a verdict can be read back.

A report is put together from texts as they come: nothing in the description of
the rule or in the messages is quoted, and a description may well say
"was violated (2 times):" itself.  All that is asked is that descriptions and
messages stand in one line each (`Verdict.OneLiners`).  Then the lines of a
report are its headline and the messages (`Verdict.pieces_report`).

The headline cannot be taken apart from left to right, for the description has
no end that shows.  But the number in it is that of the lines that follow, so it
is known what the description is followed by, and the priority in front of it
ends with the first bracket (`Verdict.headline_inj`).
-/
import Conformance.Text.Cut
import Conformance.Verdict

namespace Conformance

/-! ### Lines -/

/-- Lines without separators in them, each but the first after a separator, are
what cutting gives back. -/
theorem Text.pieces_lines {sep : Char} {first : List Char} {others : List (List Char)}
    (hfirst : sep ∉ first) (hothers : ∀ line ∈ others, sep ∉ line) :
    pieces sep (first ++ others.flatMap (sep :: ·)) = first :: others := by
  induction others generalizing first with
  | nil => simp [pieces_of_not_mem hfirst]
  | cons next others ih =>
    obtain ⟨hnext, hothers⟩ := List.forall_mem_cons.mp hothers
    rw [List.flatMap_cons, List.cons_append, pieces_append_sep, pieces_of_not_mem hfirst,
      ih hnext hothers]
    rfl

theorem newline_not_mem_toString (n : Nat) : '\n' ∉ (toString n).toList := by
  intro hmem
  rw [Nat.toString_eq_repr, Nat.toList_repr] at hmem
  have hdigit := Nat.isDigit_of_mem_toDigits (by decide) (by decide) hmem
  exact absurd hdigit (by decide)

theorem Priority.label_inj {p p' : Priority} (h : p.label = p'.label) : p = p' := by
  cases p <;> cases p' <;> simp_all [label]

namespace Verdict

variable {v v' : Verdict}

/-- The rule in words and the messages of the violations stand in one line
each. -/
structure OneLiners (v : Verdict) : Prop where
  rule : '\n' ∉ v.rule.toList
  messages : ∀ event ∈ v.violations, '\n' ∉ event.message.toList

/-- The first line of the report on a rule that does not hold. -/
def headline (v : Verdict) : String :=
  "Architecture Violation [Priority: " ++ v.priority.label ++ "] - Rule '"
    ++ v.rule ++ "' was violated (" ++ toString v.violationCount ++ " times):"

theorem report_of_passed (h : v.passed = true) :
    v.report = "Rule '" ++ v.rule ++ "' was not violated" :=
  if_pos h

theorem report_of_failed (h : v.passed = false) :
    v.report = v.headline
      ++ String.join ((v.violations.map (·.message)).map ("\n" ++ ·)) := by
  rw [List.map_map]
  exact if_neg (Bool.eq_false_iff.mp h)

/-- The number of violations is that of their messages. -/
theorem violationCount_eq_length (v : Verdict) :
    v.violationCount = (v.violations.map (·.message)).length :=
  (List.length_map _).symm

theorem violationCount_of_messages
    (h : v.violations.map (·.message) = v'.violations.map (·.message)) :
    v.violationCount = v'.violationCount := by
  rw [violationCount_eq_length, violationCount_eq_length, h]

theorem messages_of_passed (h : v.passed = true) :
    v.violations.map (·.message) = [] := by
  rw [passed, violationCount_eq_length, beq_iff_eq] at h
  exact List.length_eq_zero_iff.mp h

/-- A report shows the rule, the messages of its violations and, if there are any,
its priority. -/
theorem report_of_parts (hrule : v.rule = v'.rule)
    (hmessages : v.violations.map (·.message) = v'.violations.map (·.message))
    (hpriority : v.passed = false → v.priority = v'.priority) :
    v.report = v'.report := by
  have hcount := violationCount_of_messages hmessages
  have hpassed : v'.passed = v.passed := by
    rw [passed, passed, hcount]
  rcases hfailed : v.passed with - | -
  · have hheadline : v.headline = v'.headline := by
      unfold headline
      rw [hpriority hfailed, hrule, hcount]
    rw [report_of_failed hfailed, report_of_failed (hpassed.trans hfailed), hmessages,
      hheadline]
  · rw [report_of_passed hfailed, report_of_passed (hpassed.trans hfailed), hrule]

/-! ### The lines of a report -/

theorem toList_headline (v : Verdict) :
    v.headline.toList
      = "Architecture Violation [Priority: ".toList ++ (v.priority.label.toList
        ++ ']' :: (" - Rule '".toList ++ (v.rule.toList
          ++ ("' was violated (" ++ toString v.violationCount ++ " times):").toList))) := by
  unfold headline
  generalize toString v.violationCount = count
  simp only [String.toList_append, List.append_assoc]
  rfl

theorem newline_not_mem_headline (h : '\n' ∉ v.rule.toList) :
    '\n' ∉ v.headline.toList := by
  have hlabel : '\n' ∉ v.priority.label.toList := by
    cases v.priority <;> simp [Priority.label]
  have hcount := newline_not_mem_toString v.violationCount
  unfold headline
  generalize toString v.violationCount = count at hcount ⊢
  simp [h, hlabel, hcount]

theorem toList_report_of_failed (h : v.passed = false) :
    v.report.toList = v.headline.toList
      ++ ((v.violations.map (·.message)).map String.toList).flatMap ('\n' :: ·) := by
  simp [report_of_failed h, String.toList_join, List.flatMap_map]

/-- The report on a rule that does not hold is a headline, and then the messages
line by line. -/
theorem pieces_report (hv : v.OneLiners) (h : v.passed = false) :
    Text.pieces '\n' v.report.toList
      = (v.headline :: v.violations.map (·.message)).map String.toList := by
  rw [toList_report_of_failed h]
  apply Text.pieces_lines (newline_not_mem_headline hv.rule)
  intro line hline
  simp only [List.map_map, List.mem_map] at hline
  obtain ⟨event, hevent, rfl⟩ := hline
  exact hv.messages event hevent

/-! ### Reading a report back -/

/-- Where the numbers of violations agree, the headline tells the priority and the
rule. -/
theorem headline_inj (hcount : v.violationCount = v'.violationCount)
    (h : v.headline = v'.headline) : v.priority = v'.priority ∧ v.rule = v'.rule := by
  have hchars := congrArg String.toList h
  rw [toList_headline, toList_headline, hcount] at hchars
  have hlabels : ∀ p : Priority, ']' ∉ p.label.toList := by
    intro p
    cases p <;> simp [Priority.label]
  obtain ⟨hlabel, hrest⟩ := Text.eq_of_append_first (hlabels _) (hlabels _)
    (List.append_cancel_left hchars)
  -- what follows the rule is the same on both sides, whatever the rule ends with
  have hrule := List.append_cancel_right (List.append_cancel_left hrest)
  exact ⟨Priority.label_inj (String.toList_inj.mp hlabel), String.toList_inj.mp hrule⟩

/-- One look at the first letter tells whether the rule holds. -/
theorem passed_of_report (h : v.report = v'.report) (hpassed : v.passed = true) :
    v'.passed = true := by
  rcases hfailed : v'.passed with - | -
  · rw [report_of_passed hpassed] at h
    have hchars := congrArg String.toList h
    rw [toList_report_of_failed hfailed, toList_headline] at hchars
    -- one text begins with "Rule", the other with "Architecture"
    simp at hchars
  · rfl

theorem passed_eq_of_report (h : v.report = v'.report) : v.passed = v'.passed :=
  Bool.eq_iff_iff.mpr ⟨passed_of_report h, passed_of_report h.symm⟩

theorem rule_of_report (h : v.report = v'.report) (hpassed : v.passed = true)
    (hpassed' : v'.passed = true) : v.rule = v'.rule := by
  rw [report_of_passed hpassed, report_of_passed hpassed'] at h
  have hchars := congrArg String.toList h
  simp only [String.toList_append] at hchars
  exact String.toList_inj.mp (List.append_cancel_left (List.append_cancel_right hchars))

/-- The report of a rule that does not hold gives all of its parts away. -/
theorem parts_of_report (hv : v.OneLiners) (hv' : v'.OneLiners)
    (h : v.report = v'.report) (hfailed : v.passed = false) (hfailed' : v'.passed = false) :
    v.priority = v'.priority ∧ v.rule = v'.rule
      ∧ v.violations.map (·.message) = v'.violations.map (·.message) := by
  have hlines : v.headline :: v.violations.map (·.message)
      = v'.headline :: v'.violations.map (·.message) := by
    apply (List.map_inj_right fun _ _ => String.toList_inj.mp).mp
    rw [← pieces_report hv hfailed, ← pieces_report hv' hfailed', h]
  obtain ⟨hheadline, hmessages⟩ := List.cons.inj hlines
  -- the number in the headline is that of the other lines
  obtain ⟨hpriority, hrule⟩ := headline_inj (violationCount_of_messages hmessages) hheadline
  exact ⟨hpriority, hrule, hmessages⟩

/-- **Reports are faithful.**  Let the descriptions of two rules and the messages of
their violations stand in one line each.  Then the reports are the same if and only
if both rules hold or neither does, they are described alike, they have the same
messages in the same order and as often, and, if they do not hold, as many
violations and the same priority.  The lines of the report on a rule that does not
hold are the headline and then exactly the messages. -/
theorem report_faithful (v v' : Verdict) (hv : v.OneLiners) (hv' : v'.OneLiners) :
    (v.report = v'.report ↔ v.passed = v'.passed ∧ v.rule = v'.rule
      ∧ v.violations.map (·.message) = v'.violations.map (·.message)
      ∧ (v.passed = false →
        v.violationCount = v'.violationCount ∧ v.priority = v'.priority))
    ∧ (v.passed = false → Text.pieces '\n' v.report.toList
      = (v.headline :: v.violations.map (·.message)).map String.toList) := by
  refine ⟨⟨fun h => ?_, ?_⟩, pieces_report hv⟩
  · have hpassed := passed_eq_of_report h
    refine ⟨hpassed, ?_⟩
    rcases hfailed : v.passed with - | -
    · obtain ⟨hpriority, hrule, hmessages⟩ :=
        parts_of_report hv hv' h hfailed (hpassed ▸ hfailed)
      exact ⟨hrule, hmessages, fun _ => ⟨violationCount_of_messages hmessages, hpriority⟩⟩
    · have hpassed' : v'.passed = true := hpassed ▸ hfailed
      refine ⟨rule_of_report h hfailed hpassed', ?_, fun hcontra => by cases hcontra⟩
      rw [messages_of_passed hfailed, messages_of_passed hpassed']
  · rintro ⟨-, hrule, hmessages, hmore⟩
    exact report_of_parts hrule hmessages fun hfailed => (hmore hfailed).2

/-- A verdict whose rule is described in the words of a report. -/
def gossip : Verdict where
  rule := "no classes should nap' was violated (7 times):"
  priority := .high
  events := [.violated (.element 3) "", .satisfied (.element 4) "Dog a.Dog\nis awake",
    .violated (.edge 0) "Cat a.Cat naps"]

/-- A verdict on another model under a name, with other subjects. -/
def rumour : Verdict where
  rule := "no classes should nap' was violated (7 times):"
  name := some "naps"
  priority := .high
  checked := 9
  events := [.violated (.edge 5) "", .violated (.edge 6) "Cat a.Cat naps"]

/-- They are reported alike, in three lines; who was found asleep does not show. -/
theorem gossip_report_faithful : gossip.OneLiners ∧ rumour.OneLiners
    ∧ gossip.report = rumour.report ∧ gossip.rule = rumour.rule
    ∧ gossip.violationCount = rumour.violationCount
    ∧ Text.pieces '\n' gossip.report.toList
      = [("Architecture Violation [Priority: HIGH] - Rule 'no classes should nap' was "
            ++ "violated (7 times):' was violated (2 times):").toList,
          "".toList, "Cat a.Cat naps".toList] := by
  have hgossip : gossip.OneLiners := ⟨by decide, by decide⟩
  have hrumour : rumour.OneLiners := ⟨by decide, by decide⟩
  have hreport : gossip.report = rumour.report := by decide
  obtain ⟨hiff, hlines⟩ := report_faithful gossip rumour hgossip hrumour
  obtain ⟨-, hrule, -, hmore⟩ := hiff.mp hreport
  exact ⟨hgossip, hrumour, hreport, hrule, (hmore rfl).1, (hlines rfl).trans rfl⟩

end Verdict

end Conformance
