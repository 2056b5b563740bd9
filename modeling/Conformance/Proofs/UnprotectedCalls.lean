/-
Conformance/Proofs/UnprotectedCalls.lean

The condition on accesses under a marker flags the unprotected ones.

The accesses of a type are found by the types in which a dependency starts and
ends.  What is said of one depends on the code that makes it and on the type to
which this code belongs.  These are two ways to name a type, and nothing in a
dependency makes them agree; in a built code base they do, since an access
starts at a member of the type in which it is said to start
(`WellFormed.caller`).

So each access comes out as `Judges` says (`WellFormed.judges`).  No access has a
fault, so that they are judged one after the other, and the list of them has two
parts: the accesses that the type makes, which are fine, and those that are made
to it.  An access that the type makes to itself is in both.
-/
import Conformance.Proofs.Completion
import Conformance.Proofs.ElementTable

namespace Conformance

open Check

/-! ### One access -/

theorem Element.isAnnotatedWith_iff (e : Element) (marker : String) :
    e.isAnnotatedWith marker = true ↔ marker ∈ e.markers := by
  simp [isAnnotatedWith, markers]

namespace Condition

/-- An access is fine, or it comes from elsewhere and the marker is missing both
on the code that makes it and on the type of this code. -/
theorem judgeCall_cases (marker : String) (c : Element) (d : Dependency)
    (origin originClass : Element) :
    ((originClass.id = c.id ∨ marker ∈ origin.markers ∨ marker ∈ originClass.markers)
      ∧ ∃ message, judgeCall marker c d origin originClass
        = .satisfied (.edge d.id) message)
    ∨ ((originClass.id ≠ c.id ∧ marker ∉ origin.markers
        ∧ marker ∉ originClass.markers)
      ∧ judgeCall marker c d origin originClass
        = .violated (.edge d.id) ("Neither Class " ++ originClass.fullName
          ++ " or Method " ++ origin.fullName ++ " are annotated by "
          ++ label marker)) := by
  simp only [← Element.isAnnotatedWith_iff]
  -- the cases are those of the definition, in its order
  by_cases hown : originClass.id = c.id
  · exact Or.inl ⟨Or.inl hown, _, if_pos hown⟩
  by_cases horigin : origin.isAnnotatedWith marker = true
  · exact Or.inl ⟨Or.inr (Or.inl horigin), _, (if_neg hown).trans (if_pos horigin)⟩
  by_cases hclass : originClass.isAnnotatedWith marker = true
  · exact Or.inl ⟨Or.inr (Or.inr hclass), _,
      (if_neg hown).trans ((if_neg horigin).trans (if_pos hclass))⟩
  · refine Or.inr ⟨⟨hown, horigin, hclass⟩, ?_⟩
    rw [judgeCall, if_neg hown, if_neg horigin, if_neg hclass]

end Condition

namespace CodeBase

variable {b : CodeBase} {marker : String} {c : Element} {d : Dependency}

/-- What is to be said of an access with regard to type `c`. -/
structure Judges (b : CodeBase) (marker : String) (c : Element) (d : Dependency)
    (event : Event) : Prop where
  subject_eq : event.subject = .edge d.id
  /-- It is at fault if it is made in another type, by a member that does not
  carry the marker, and the type does not carry it either. -/
  flagged : ∃ origin originClass, b.element? d.origin = some origin
    ∧ b.element? d.originClass = some originClass
    ∧ origin.owner = some d.originClass
    ∧ (event.outcome = .violated ↔ d.originClass ≠ c.id
      ∧ marker ∉ origin.markers ∧ marker ∉ originClass.markers)
    ∧ (event.outcome = .violated → event.message
      = "Neither Class " ++ originClass.fullName ++ " or Method "
        ++ origin.fullName ++ " are annotated by " ++ Condition.label marker)

/-- The code that makes an access belongs to the type in which the access is
said to start. -/
theorem WellFormed.caller (h : b.WellFormed) (hd : d ∈ b.dependencies)
    (haccess : d.kind.isAccess = true) :
    ∃ origin originClass, b.element? d.origin = some origin
      ∧ b.element? d.originClass = some originClass
      ∧ origin.kind.isCodeUnit = true ∧ origin.owner = some d.originClass := by
  have hedge := h.edges d hd
  obtain ⟨originClass, horiginClass, htype, -⟩ := hedge.originClass
  obtain ⟨origin, horigin, hmember⟩ := hedge.origin
  obtain ⟨caller, -, hcaller, hcode, -⟩ := (h.resolves hd).caller haccess
  obtain rfl : origin = caller := Option.some.inj (horigin.symm.trans hcaller)
  refine ⟨origin, originClass, horigin, horiginClass, hcode, ?_⟩
  rcases hmember with hsame | ⟨howner, -⟩
  · -- the type itself holds no code
    rw [hsame, horiginClass] at horigin
    obtain rfl := Option.some.inj horigin
    rw [htype] at hcode
    cases hcode
  · exact howner

/-- A judgement with the type of the code is one with the type in which the
access starts. -/
theorem WellFormed.judges (h : b.WellFormed) (hd : d ∈ b.dependencies)
    (haccess : d.kind.isAccess = true) {event : Event}
    (hevent : b.model.Judges marker c d event) : b.Judges marker c d event := by
  obtain ⟨origin, originClass, horigin, horiginClass, -, howner⟩ := h.caller hd haccess
  cases hevent with | @intro caller owner caller_eq owner_eq
  obtain rfl : origin = caller := Option.some.inj (horigin.symm.trans caller_eq)
  have hbind : origin.owner.bind b.model.element? = some originClass := by
    rw [howner]
    exact horiginClass
  obtain rfl : originClass = owner := Option.some.inj (hbind.symm.trans owner_eq)
  have hcases := Condition.judgeCall_cases marker c d origin originClass
  rw [h.element_id _ _ horiginClass] at hcases
  rcases hcases with ⟨hfine, message, heq⟩ | ⟨hbad, heq⟩
  · rw [heq]
    refine ⟨rfl, origin, originClass, horigin, horiginClass, howner, ?_, ?_⟩
    · refine ⟨fun hviolated => (by cases hviolated), ?_⟩
      rintro ⟨hforeign, hbare, hbare'⟩
      rcases hfine with hown | hmarked | hmarked
      · exact absurd hown hforeign
      · exact absurd hmarked hbare
      · exact absurd hmarked hbare'
    · intro hviolated
      cases hviolated
  · rw [heq]
    exact ⟨rfl, origin, originClass, horigin, horiginClass, howner,
      ⟨fun _ => hbad, fun _ => rfl⟩, fun _ => rfl⟩

/-- Accesses are judged one by one, in order. -/
theorem WellFormed.judges_checkCalls (h : b.WellFormed) {ds : List Dependency}
    (hds : ∀ d ∈ ds, d ∈ b.dependencies ∧ d.kind.isAccess = true)
    (marker : String) (c : Element) :
    ∃ found, Yields (Condition.checkCalls b.model marker c ds) () found
      ∧ List.Forall₂ (b.Judges marker c) ds found := by
  have hnone : ∀ d ∈ ds, ∀ fault, ¬ b.model.CallFault d fault := by
    intro d hd
    obtain ⟨hmem, haccess⟩ := hds d hd
    exact (h.resolves hmem).not_callFault haccess
  obtain ⟨found, hfound, hall⟩ := Condition.judges_checkCalls marker c hnone
  refine ⟨found, hfound, ?_⟩
  have hboth := (List.forall₂_and_left _ _).mpr ⟨hds, hall⟩
  exact hboth.imp fun d event hd => h.judges hd.1.1 hd.1.2 hd.2

/-- What a type does itself is fine. -/
theorem Judges.satisfied_of_own {event : Event} (h : b.Judges marker c d event)
    (hown : d.originClass = c.id) : event.outcome = .satisfied := by
  obtain ⟨-, origin, originClass, -, -, -, hiff, -⟩ := h
  cases hout : event.outcome with
  | satisfied => rfl
  | violated => exact absurd hown (hiff.mp hout).1

/-! ### All accesses -/

theorem Indexed.filter_id (h : b.Indexed) {p : Dependency → Bool}
    (hd : d ∈ b.dependencies) (hp : p d = true) :
    (b.dependencies.filter p).filter (fun d' => d'.id == d.id) = [d] := by
  -- among the dependencies of a code base, only `d` has its id
  have hbeq : ∀ d' ∈ b.dependencies.filter p, (d'.id == d.id) = (d' == d) := by
    intro d' hd'
    rw [Bool.eq_iff_iff, beq_iff_eq, beq_iff_eq]
    refine ⟨fun hid => ?_, congrArg _⟩
    have hfound := h.dependency?_of_mem (List.mem_of_mem_filter hd')
    rw [hid, h.dependency?_of_mem hd] at hfound
    exact (Option.some.inj hfound).symm
  rw [List.filter_congr hbeq, List.filter_beq,
    List.count_eq_one_of_mem (h.nodup_dependencies.filter p)
      (List.mem_filter.mpr ⟨hd, hp⟩)]
  rfl

/-- Of events on some of the dependencies, one for each, one is about a given
one of them. -/
theorem Indexed.filter_subject (h : b.Indexed) {p : Dependency → Bool}
    {R : Dependency → Event → Prop} (hR : ∀ d event, R d event → event.subject = .edge d.id)
    {events : List Event} (hall : List.Forall₂ R (b.dependencies.filter p) events)
    (hd : d ∈ b.dependencies) (hp : p d = true) :
    ∃ event, events.filter (fun event => event.subject == .edge d.id) = [event]
      ∧ R d event := by
  have habout := forall₂_filter hall (p := fun d' => d'.id == d.id)
    (q := fun event => event.subject == .edge d.id) fun d' event hevent => by
      rw [hR d' event hevent, Bool.eq_iff_iff, beq_iff_eq, beq_iff_eq, Subject.edge.injEq]
  rw [h.filter_id hd hp] at habout
  obtain ⟨event, rest, hevent, hrest, heq⟩ := List.forall₂_cons_left_iff.mp habout
  rw [List.forall₂_nil_left_iff.mp hrest] at heq
  exact ⟨event, heq, hevent⟩

end CodeBase

namespace Blueprint

/-- **Exactly the unprotected accesses from elsewhere are flagged.**  On a built
code base, accesses under a marker are checked to the end for every type.  First
come the accesses made by the type, each satisfied, then those made to it, each
violated if and only if it is made in another type and the marker stands neither
on the member that makes it nor on that type; the message names both.  So an
access that a type makes to itself is found twice, and is fine both times. -/
theorem accessedUnder_flags_unprotected {p : Blueprint} {b : CodeBase}
    (h : p.build = .ok b) (marker : String) (c : Element) :
    ∃ own others, Yields ((Condition.accessedUnder marker).check b.model c) ()
        (own ++ others)
      ∧ List.Forall₂ (fun d event => event.subject = .edge d.id
            ∧ event.outcome = .satisfied)
          (b.dependencies.filter fun d => d.kind.isAccess && d.originClass == c.id) own
      ∧ List.Forall₂ (b.Judges marker c)
          (b.dependencies.filter fun d => d.kind.isAccess && d.targetClass == c.id)
          others
      ∧ ∀ d ∈ b.dependencies, d.kind.isAccess = true → d.originClass = c.id →
        d.targetClass = c.id →
        ((own ++ others).filter fun event => event.subject == .edge d.id).map
          (·.outcome) = [.satisfied, .satisfied] := by
  have hb := depicts_build h
  have hindexed := hb.sound.indexed
  obtain ⟨found, hfound, hjudges⟩ := hb.wellFormed.judges_checkCalls
    (fun _ => hindexed.of_mem_calls) marker c
  -- the accesses are gone through in two lots, and so the findings fall into two
  obtain ⟨own, others, hown, hothers, rfl⟩ := forall₂_append_left hjudges
  rw [hindexed.callsFrom_eq] at hown
  rw [hindexed.callsTo_eq] at hothers
  -- whatever is in the first lot, the type does itself
  have hfine : List.Forall₂ (fun d event => event.subject = .edge d.id
      ∧ event.outcome = .satisfied)
      (b.dependencies.filter (Dependency.callsFrom c.id)) own := by
    have hstarts : ∀ d ∈ b.dependencies.filter (Dependency.callsFrom c.id),
        d.originClass = c.id := by
      intro d hd
      have hcall := (List.mem_filter.mp hd).2
      rw [Dependency.callsFrom, Bool.and_eq_true, beq_iff_eq] at hcall
      exact hcall.2
    refine ((List.forall₂_and_left _ _).mpr ⟨hstarts, hown⟩).imp ?_
    rintro d event ⟨hstart, hjudge⟩
    exact ⟨hjudge.subject_eq, hjudge.satisfied_of_own hstart⟩
  refine ⟨own, others, hfound, hfine, hothers, ?_⟩
  -- an access of the type to itself is in either lot, once
  intro d hd haccess hstart hend
  obtain ⟨first, hfirst, -, hsatisfied⟩ := hindexed.filter_subject
    (fun _ _ hevent => hevent.1) hfine hd (by simp [Dependency.callsFrom, haccess, hstart])
  obtain ⟨second, hsecond, hjudge⟩ := hindexed.filter_subject
    (fun _ _ hevent => hevent.subject_eq) hothers hd
    (by simp [Dependency.callsTo, haccess, hend])
  rw [List.filter_append, hfirst, hsecond]
  show [first.outcome, second.outcome] = _
  rw [hsatisfied, hjudge.satisfied_of_own hstart]

/-- A vault that unlocks itself.  The teller's method that unlocks it is marked,
the one that looks into it is not; the boss is marked as a whole. -/
def bank : Blueprint where
  classes :=
    [{ name := "a.Vault"
       members :=
        [{ head := .method "unlock" },
          { head := .method "count"
            accesses := [{ owner := "a.Vault", target := .method "unlock" [] }] }] },
      { name := "a.Teller"
        members :=
          [{ head := .method "pay", annotations := [{ typeName := "a.Mark" }]
             accesses := [{ owner := "a.Vault", target := .method "unlock" [] }] },
            { head := .method "look"
              accesses := [{ owner := "a.Vault", target := .field "gold" }] }] },
      { name := "a.Boss", annotations := [{ typeName := "a.Mark" }]
        members :=
          [{ head := .method "audit"
             accesses := [{ owner := "a.Vault", target := .method "count" [] }] }] }]

/-- Of four accesses to the vault one is flagged, which runs to a stub; the
vault's own comes up twice. -/
theorem bank_flags_unprotected : ∃ b c d, bank.build = .ok b
    ∧ b.element? 0 = some c ∧ b.dependency? 0 = some d
    ∧ ∃ own others,
      Yields ((Condition.accessedUnder "a.Mark").check b.model c) () (own ++ others)
      ∧ (own ++ others).map (fun event => (event.subject, event.outcome))
        = [(.edge 0, .satisfied), (.edge 0, .satisfied), (.edge 2, .satisfied),
            (.edge 3, .violated), (.edge 5, .satisfied)]
      ∧ Event.complaints (own ++ others)
        = ["Neither Class a.Teller or Method a.Teller.look() are annotated by @Mark"]
      ∧ ((own ++ others).filter fun event => event.subject == .edge d.id).map
          (·.outcome) = [.satisfied, .satisfied] := by
  refine ⟨_, _, _, rfl, rfl, rfl, ?_⟩
  obtain ⟨own, others, hyields, -, -, hself⟩ :=
    accessedUnder_flags_unprotected (p := bank) rfl "a.Mark" _
  have hfound : own ++ others = _ := (congrArg Prod.snd (hyields [])).symm
  refine ⟨own, others, hyields, ?_, ?_, hself _ (by decide) rfl rfl rfl⟩
  · rw [hfound]
    decide +kernel
  · rw [hfound]
    decide +kernel

end Blueprint

end Conformance
