/-
Conformance/FirstSeen.lean

Keeping the first of each: the entries of a list whose key has not come up
before, in order.  Searches use it not to go the same way twice, and reports
to speak of each subject once.

A list that is gone through entry by entry is fine to its end, or falls into
what comes before the first entry at fault, that entry, and the rest
(`fine_or_first`, `forall_or_first`).
-/

namespace Conformance

variable {α κ : Type} [BEq κ]

/-- The entries whose key is neither in `seen` nor the key of an earlier
entry. -/
def firstSeenBy (key : α → κ) (seen : List κ) : List α → List α
  | [] => []
  | a :: as =>
    if seen.contains (key a) then firstSeenBy key seen as
    else a :: firstSeenBy key (key a :: seen) as

/-- The entries of a list, each only where it first stands. -/
def firstSeen {α : Type} [BEq α] (as : List α) : List α :=
  firstSeenBy (fun a => a) [] as

/-- The keys of what is kept are those of all entries, each where it first
stands. -/
theorem map_firstSeenBy (key : α → κ) (seen : List κ) (as : List α) :
    (firstSeenBy key seen as).map key = firstSeenBy (fun k => k) seen (as.map key) := by
  induction as generalizing seen with
  | nil => rfl
  | cons a as ih =>
    rw [List.map_cons, firstSeenBy, firstSeenBy]
    split
    · exact ih seen
    · rw [List.map_cons, ih]

/-- What is kept is what is in the list and not seen before. -/
theorem mem_firstSeenBy_self {α : Type} [BEq α] [LawfulBEq α]
    {seen as : List α} {a : α} :
    a ∈ firstSeenBy (fun x => x) seen as ↔ a ∈ as ∧ a ∉ seen := by
  induction as generalizing seen with
  | nil => simp [firstSeenBy]
  | cons b as ih =>
    by_cases hb : b ∈ seen
    · simp only [firstSeenBy, List.contains_iff_mem, hb, if_true, ih]
      grind
    · simp only [firstSeenBy, List.contains_iff_mem, hb, if_false, ih,
        List.mem_cons]
      grind

/-- What is fine at the start, and stays so with each entry that is not at
fault, is fine to the end, or else up to a first entry at fault.  Whether an
entry is at fault may depend on those before it. -/
theorem fine_or_first {α : Type} (Fine : List α → Prop) (AtFault : List α → α → Prop)
    (hstart : Fine [])
    (hnext : ∀ before a, Fine before → ¬ AtFault before a → Fine (before ++ [a]))
    (as : List α) :
    Fine as ∨ ∃ before a after, as = before ++ a :: after ∧ Fine before
      ∧ AtFault before a := by
  -- what has been gone through already comes first
  have hrest : ∀ as done, Fine done → Fine (done ++ as)
      ∨ ∃ before a after, done ++ as = before ++ a :: after ∧ Fine before
        ∧ AtFault before a := by
    intro as
    induction as with
    | nil =>
      intro done hdone
      left
      rw [List.append_nil]
      exact hdone
    | cons a as ih =>
      intro done hdone
      by_cases hfault : AtFault done a
      · exact Or.inr ⟨done, a, as, rfl, hdone, hfault⟩
      · have hmore := ih (done ++ [a]) (hnext done a hdone hfault)
        rwa [List.append_assoc] at hmore
  exact hrest as [] hstart

/-- Either all entries have a property, or there is a first one that lacks it. -/
theorem forall_or_first {α : Type} (P : α → Prop) (as : List α) :
    (∀ a ∈ as, P a) ∨ ∃ before a after, as = before ++ a :: after
      ∧ (∀ a' ∈ before, P a') ∧ ¬ P a := by
  refine fine_or_first (fun as => ∀ a ∈ as, P a) (fun _ a => ¬ P a)
    (List.forall_mem_nil P) (fun before a hbefore ha => ?_) as
  exact List.forall_mem_append.mpr
    ⟨hbefore, List.forall_mem_singleton.mpr (Classical.not_not.mp ha)⟩

end Conformance
