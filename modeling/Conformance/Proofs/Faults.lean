/-
Conformance/Proofs/Faults.lean

Checks that follow dependencies break off at the first fault, and only there.

A model may be anything: it may lack elements that its dependencies name, or
answer with others in their place.  What a check then runs into is the *fault*
of a dependency.  Checks look at different things, so there is a relation for
each of them.

* `TargetFault`: the type at the other end is looked up in any case, the rest
  of the dependency only if that type has the property.
* `CallFault`: an access has to be made by code, which has to belong to a type.
* `UserFault`: only the type in which a dependency starts is looked up.

The step is one dependency.  With a fault, it breaks off and adds nothing
(`TargetFault.breaks`, `CallFault.breaks`); without, it ends, and is said what it
adds (`tells_checkTarget`, `judges_checkCall`).  The run is by induction on the
list, and a run over two lists is one over the first and then one over the second
(`checkTargets_append`, `checkCalls_append`), so that it is cut at the first
fault.  Nothing is assumed of the model (`Condition.breaks_at_first_fault`).
-/
import Conformance.Proofs.FreshRuns

namespace Conformance

/-! ### Checks that break off -/

namespace Check

variable {α β : Type} {x : Check α} {a : α} {fault : Inconsistency}
  {found : List Event}

/-- The check breaks off with a fault, and adds the events `found` before. -/
def Breaks (x : Check α) (fault : Inconsistency) (found : List Event) : Prop :=
  ∀ events, x.runFrom events = (.error fault, events ++ found)

theorem breaks_throw (fault : Inconsistency) :
    Breaks (throw fault : Check α) fault [] := by
  intro events
  rw [runFrom_throw, List.append_nil]

/-- What follows a check that breaks off adds nothing. -/
theorem Breaks.bind (hx : Breaks x fault found) (f : α → Check β) :
    Breaks (x >>= f) fault found := by
  intro events
  rw [runFrom_bind, hx events]

theorem Yields.bind_breaks {f : α → Check β} {found' : List Event}
    (hx : Yields x a found) (hf : Breaks (f a) fault found') :
    Breaks (x >>= f) fault (found ++ found') := by
  intro events
  rw [runFrom_bind, hx events]
  show (f a).runFrom (events ++ found) = _
  rw [hf, List.append_assoc]

/-- A lookup that fails breaks the check off. -/
theorem breaks_lookup {y : Except Inconsistency α} (hy : y = .error fault)
    (f : α → Check β) : Breaks (lookup y >>= f) fault [] := by
  subst hy
  exact (breaks_throw fault).bind f

theorem Breaks.after_lookup {f : α → Check β} {y : Except Inconsistency α}
    (hy : y = .ok a) (hf : Breaks (f a) fault found) :
    Breaks (lookup y >>= f) fault found := by
  subst hy
  exact (yields_lookup a).bind_breaks hf

/-- From nothing, the check breaks off if and only if one of the entries has a
fault.  It does so with the fault of the first of them, and the events it leaves
are as `Left` says of the entries before that one. -/
structure BreaksAtFirst {δ : Type} (x : Check Unit) (ds : List δ)
    (Fault : δ → Inconsistency → Prop) (Left : List δ → List Event → Prop) :
    Prop where
  breaks_iff : (∃ fault, (x.runFrom []).1 = .error fault)
    ↔ ∃ d ∈ ds, ∃ fault, Fault d fault
  breaks_first : ∀ {fault found}, x.runFrom [] = (.error fault, found) →
    ∃ before d after, ds = before ++ d :: after
      ∧ (∀ d' ∈ before, ∀ fault', ¬ Fault d' fault')
      ∧ Fault d fault ∧ Left before found

/-- It is enough to know how the check comes out without a fault, and that it
breaks off at an entry with a fault if there is none before. -/
theorem breaksAtFirst {δ : Type} {x : Check Unit} {ds : List δ}
    {Fault : δ → Inconsistency → Prop} {Left : List δ → List Event → Prop}
    (hends : (∀ d ∈ ds, ∀ fault, ¬ Fault d fault) → Ends x)
    (hbreaks : ∀ {before d after fault}, ds = before ++ d :: after →
      (∀ d' ∈ before, ∀ fault', ¬ Fault d' fault') → Fault d fault →
      ∃ found, Breaks x fault found ∧ Left before found) :
    BreaksAtFirst x ds Fault Left := by
  rcases forall_or_first (fun d => ∀ fault, ¬ Fault d fault) ds with
    hnone | ⟨before, d, after, hds, hbefore, hd⟩
  · -- the check ends, so neither side of anything holds
    obtain ⟨_, found, hfound⟩ := hends hnone
    constructor
    · constructor
      · rintro ⟨fault, hrun⟩
        rw [hfound []] at hrun
        cases hrun
      · rintro ⟨d, hd, fault, hfault⟩
        exact absurd hfault (hnone d hd fault)
    · intro fault found' hrun
      rw [hfound []] at hrun
      cases hrun
  · obtain ⟨fault, hfault⟩ := not_forall_not.mp hd
    obtain ⟨found, hfound, hleft⟩ := hbreaks hds hbefore hfault
    constructor
    · have hmem : d ∈ ds := by
        rw [hds]
        exact List.mem_append_right _ List.mem_cons_self
      rw [hfound []]
      exact ⟨fun _ => ⟨d, hmem, fault, hfault⟩, fun _ => ⟨fault, rfl⟩⟩
    · intro fault' found' hrun
      rw [hfound [], List.nil_append] at hrun
      cases hrun
      exact ⟨before, d, after, hds, hbefore, hfault, hleft⟩

end Check

/-! ### Faults of dependencies -/

namespace CodeModel

variable {m : CodeModel}

/-- The dependency ends in a type with the property. -/
def endsIn (m : CodeModel) (that : Predicate) (d : Dependency) : Bool :=
  (m.element? d.targetClass).any fun e => that.holds m e

theorem endsIn_iff {that : Predicate} {d : Dependency} :
    m.endsIn that d = true
      ↔ ∃ e, m.element? d.targetClass = some e ∧ that.holds m e = true := by
  simp [endsIn, Option.any_eq_true]

/-- The event is about the dependency, and its message is the dependency in
words. -/
inductive Tells (m : CodeModel) (outcome : Outcome) (d : Dependency) :
    Event → Prop where
  | intro {origin originClass target : Element}
      (origin_eq : m.element? d.origin = some origin)
      (originClass_eq : m.element? d.originClass = some originClass)
      (target_eq : m.element? d.target = some target) :
      Tells m outcome d
        ⟨.edge d.id, outcome, d.describe origin originClass target⟩

/-- The event is the judgement on an access of `c`, with the code that makes it
and the type of that code. -/
inductive Judges (m : CodeModel) (marker : String) (c : Element) (d : Dependency) :
    Event → Prop where
  | intro {origin originClass : Element}
      (origin_eq : m.element? d.origin = some origin)
      (owner_eq : origin.owner.bind m.element? = some originClass) :
      Judges m marker c d (Condition.judgeCall marker c d origin originClass)

/-- What is missing when the target of a dependency is examined: the type at its
end, or, if that is there and has the property, the first of its origin, the type
of its origin, and its target. -/
inductive TargetFault (m : CodeModel) (that : Predicate) (d : Dependency) :
    Inconsistency → Prop where
  | targetClass (missing : m.element? d.targetClass = none) :
      TargetFault m that d (.unknownElement d.targetClass)
  | origin (ends : m.endsIn that d = true) (missing : m.element? d.origin = none) :
      TargetFault m that d (.unknownElement d.origin)
  | originClass {origin : Element} (ends : m.endsIn that d = true)
      (origin_eq : m.element? d.origin = some origin)
      (missing : m.element? d.originClass = none) :
      TargetFault m that d (.unknownElement d.originClass)
  | target {origin originClass : Element} (ends : m.endsIn that d = true)
      (origin_eq : m.element? d.origin = some origin)
      (originClass_eq : m.element? d.originClass = some originClass)
      (missing : m.element? d.target = none) :
      TargetFault m that d (.unknownElement d.target)

/-- What is wrong with the origin of an access: it is missing, it holds no code,
or it belongs to no type of the model. -/
inductive CallFault (m : CodeModel) (d : Dependency) : Inconsistency → Prop where
  | origin (missing : m.element? d.origin = none) :
      CallFault m d (.unknownElement d.origin)
  | code {origin : Element} (origin_eq : m.element? d.origin = some origin)
      (none : origin.kind.isCodeUnit = false) :
      CallFault m d (.notACodeUnit d.id origin.display)
  | owner {origin : Element} (origin_eq : m.element? d.origin = some origin)
      (code : origin.kind.isCodeUnit = true)
      (missing : origin.owner.bind m.element? = none) :
      CallFault m d (.missingOwner origin.fullName)

/-- The type in which a dependency starts is missing. -/
inductive UserFault (m : CodeModel) (d : Dependency) : Inconsistency → Prop where
  | originClass (missing : m.element? d.originClass = none) :
      UserFault m d (.unknownElement d.originClass)

end CodeModel

namespace Condition

open Check CodeModel

variable {m : CodeModel} {that : Predicate} {d : Dependency} {ds : List Dependency}
  {fault : Inconsistency}

/-! ### Following the targets -/

/-- Without a fault, a dependency is told of if it ends in a type with the
property. -/
theorem tells_checkTarget (hd : ∀ fault, ¬ m.TargetFault that d fault) :
    ∃ found, Yields (checkTarget m that d) (m.endsIn that d) found
      ∧ List.Forall₂ (m.Tells .satisfied) ([d].filter (m.endsIn that)) found := by
  rcases htargetClass : m.element? d.targetClass with - | targetClass
  · exact absurd (.targetClass htargetClass) (hd _)
  have hends : m.endsIn that d = that.holds m targetClass := by
    rw [endsIn, htargetClass, Option.any_some]
  rcases hthat : that.holds m targetClass
  · -- nothing else is looked up
    rw [hthat] at hends
    refine ⟨[], ?_, ?_⟩
    · refine .after_lookup (resolve_of_some htargetClass) ?_
      rw [hends, if_neg (by rw [hthat]; exact Bool.false_ne_true)]
      exact yields_pure false
    · rw [List.filter_cons_of_neg (by rw [hends]; exact Bool.false_ne_true)]
      exact .nil
  · -- whatever is missing from here on would be a fault
    rw [hthat] at hends
    rcases horigin : m.element? d.origin with - | origin
    · exact absurd (.origin hends horigin) (hd _)
    rcases horiginClass : m.element? d.originClass with - | originClass
    · exact absurd (.originClass hends horigin horiginClass) (hd _)
    rcases htarget : m.element? d.target with - | target
    · exact absurd (.target hends horigin horiginClass htarget) (hd _)
    have hyields := yields_checkTarget (resolve_of_some htargetClass)
      (resolve_of_some horigin) (resolve_of_some horiginClass)
      (resolve_of_some htarget) that
    rw [hthat, if_pos rfl] at hyields
    refine ⟨_, hends ▸ hyields, ?_⟩
    rw [List.filter_cons_of_pos hends]
    exact .cons (.intro horigin horiginClass htarget) .nil

/-- The dependencies that are told of are those that end in a type with the
property, in order. -/
theorem tells_checkTargets (hds : ∀ d ∈ ds, ∀ fault, ¬ m.TargetFault that d fault)
    (before : Bool) :
    ∃ found, Yields (checkTargets m that before ds)
        (before || ds.any (m.endsIn that)) found
      ∧ List.Forall₂ (m.Tells .satisfied) (ds.filter (m.endsIn that)) found := by
  induction ds generalizing before with
  | nil =>
    refine ⟨[], ?_, .nil⟩
    rw [List.any_nil, Bool.or_false]
    exact yields_pure before
  | cons d ds ih =>
    obtain ⟨hd, hds⟩ := List.forall_mem_cons.mp hds
    obtain ⟨first, hfirst, htells⟩ := tells_checkTarget hd
    obtain ⟨rest, hrest, htells'⟩ := ih hds (before || m.endsIn that d)
    refine ⟨first ++ rest, ?_, ?_⟩
    · rw [List.any_cons, ← Bool.or_assoc]
      exact hfirst.bind hrest
    · rw [← List.singleton_append, List.filter_append]
      exact List.rel_append htells htells'

theorem breaks_checkTarget (hd : m.TargetFault that d fault) :
    Breaks (checkTarget m that d) fault [] := by
  -- past the first lookup, the type at the end is there and has the property
  have hpast (ends : m.endsIn that d = true) {f : Element → Check Bool}
      (hf : ∀ e, Breaks (f e) fault []) :
      Breaks (lookup (m.resolve d.targetClass) >>= fun e =>
        if that.holds m e then f e else pure false) fault [] := by
    obtain ⟨e, he, hthat⟩ := endsIn_iff.mp ends
    refine .after_lookup (resolve_of_some he) ?_
    rw [if_pos hthat]
    exact hf e
  cases hd with
  | targetClass missing => exact breaks_lookup (resolve_of_none missing) _
  | origin ends missing =>
    exact hpast ends fun _ => breaks_lookup (resolve_of_none missing) _
  | originClass ends origin_eq missing =>
    refine hpast ends fun _ => .after_lookup (resolve_of_some origin_eq) ?_
    exact breaks_lookup (resolve_of_none missing) _
  | target ends origin_eq originClass_eq missing =>
    refine hpast ends fun _ => .after_lookup (resolve_of_some origin_eq) ?_
    refine .after_lookup (resolve_of_some originClass_eq) ?_
    exact breaks_lookup (resolve_of_none missing) _

theorem checkTargets_append (found : Bool) (ds ds' : List Dependency) :
    checkTargets m that found (ds ++ ds')
      = checkTargets m that found ds >>= fun found' =>
          checkTargets m that found' ds' := by
  induction ds generalizing found with
  | nil => rfl
  | cons d ds ih =>
    rw [List.cons_append, checkTargets, checkTargets, bind_assoc]
    exact congrArg _ (funext fun here => ih (found || here))

theorem ends_checkDependOn {c : Element}
    (h : ∀ d ∈ m.dependenciesFrom c.id, ∀ fault, ¬ m.TargetFault that d fault) :
    Ends (checkDependOn m that c) := by
  obtain ⟨found, hfound, -⟩ := tells_checkTargets h false
  refine Ends.bind ⟨_, found, hfound⟩ fun here => ?_
  split
  · exact ends_emit _
  · exact ends_pure ()

theorem breaksAtFirst_checkDependOn (m : CodeModel) (that : Predicate) (c : Element) :
    BreaksAtFirst (checkDependOn m that c) (m.dependenciesFrom c.id)
      (m.TargetFault that) fun before found =>
        List.Forall₂ (m.Tells .satisfied) (before.filter (m.endsIn that)) found := by
  refine breaksAtFirst ends_checkDependOn ?_
  intro before d after fault hds hbefore hd
  obtain ⟨found, hfound, htells⟩ := tells_checkTargets hbefore false
  -- the break comes before the type itself would be spoken of
  refine ⟨found, Breaks.bind ?_ _, htells⟩
  rw [hds, checkTargets_append, ← List.append_nil found]
  exact hfound.bind_breaks ((breaks_checkTarget hd).bind _)

/-! ### Judging accesses -/

/-- Without a fault, an access is judged. -/
theorem judges_checkCall (marker : String) (c : Element)
    (hd : ∀ fault, ¬ m.CallFault d fault) :
    ∃ event, Yields (checkCall m marker c d) () [event]
      ∧ m.Judges marker c d event := by
  rcases horigin : m.element? d.origin with - | origin
  · exact absurd (.origin horigin) (hd _)
  rcases hcode : origin.kind.isCodeUnit
  · exact absurd (.code horigin hcode) (hd _)
  rcases howner : origin.owner.bind m.element? with - | originClass
  · exact absurd (.owner horigin hcode howner) (hd _)
  exact ⟨_, yields_checkCall (resolve_of_some horigin) hcode
    (ownerOf_of_some howner) marker c, .intro horigin howner⟩

theorem judges_checkCalls (marker : String) (c : Element)
    (hds : ∀ d ∈ ds, ∀ fault, ¬ m.CallFault d fault) :
    ∃ found, Yields (checkCalls m marker c ds) () found
      ∧ List.Forall₂ (m.Judges marker c) ds found := by
  induction ds with
  | nil => exact ⟨[], yields_pure (), .nil⟩
  | cons d ds ih =>
    obtain ⟨hd, hds⟩ := List.forall_mem_cons.mp hds
    obtain ⟨event, hevent, hjudges⟩ := judges_checkCall marker c hd
    obtain ⟨found, hfound, hall⟩ := ih hds
    exact ⟨event :: found, hevent.bind hfound, .cons hjudges hall⟩

theorem breaks_checkCall (marker : String) (c : Element) (hd : m.CallFault d fault) :
    Breaks (checkCall m marker c d) fault [] := by
  cases hd with
  | origin missing => exact breaks_lookup (resolve_of_none missing) _
  | code origin_eq none =>
    refine .after_lookup (resolve_of_some origin_eq) ?_
    rw [none]
    exact (breaks_throw _).bind _
  | owner origin_eq code missing =>
    refine .after_lookup (resolve_of_some origin_eq) ?_
    rw [code]
    exact breaks_lookup (ownerOf_of_none missing) _

theorem checkCalls_append (marker : String) (c : Element) (ds ds' : List Dependency) :
    checkCalls m marker c (ds ++ ds')
      = checkCalls m marker c ds >>= fun _ => checkCalls m marker c ds' := by
  induction ds with
  | nil => rfl
  | cons d ds ih =>
    rw [List.cons_append, checkCalls, checkCalls, bind_assoc]
    exact congrArg _ (funext fun _ => ih)

theorem ends_checkCalls (marker : String) (c : Element)
    (h : ∀ d ∈ ds, ∀ fault, ¬ m.CallFault d fault) :
    Ends (checkCalls m marker c ds) := by
  obtain ⟨found, hfound, -⟩ := judges_checkCalls marker c h
  exact ⟨(), found, hfound⟩

theorem breaksAtFirst_checkCalls (m : CodeModel) (marker : String) (c : Element)
    (ds : List Dependency) :
    BreaksAtFirst (checkCalls m marker c ds) ds m.CallFault
      (List.Forall₂ (m.Judges marker c)) := by
  refine breaksAtFirst (ends_checkCalls marker c) ?_
  intro before d after fault hds hbefore hd
  obtain ⟨found, hfound, hjudges⟩ := judges_checkCalls marker c hbefore
  refine ⟨found, ?_, hjudges⟩
  rw [hds, checkCalls_append, ← List.append_nil found]
  exact hfound.bind_breaks ((breaks_checkCall marker c hd).bind _)

/-! ### Finding the users -/

theorem exists_originClass (hd : ∀ fault, ¬ m.UserFault d fault) :
    ∃ e, m.resolve d.originClass = .ok e := by
  rcases horigin : m.element? d.originClass with - | origin
  · exact absurd (.originClass horigin) (hd _)
  · exact ⟨origin, resolve_of_some horigin⟩

theorem exists_resolveOrigins (hds : ∀ d ∈ ds, ∀ fault, ¬ m.UserFault d fault) :
    ∃ origins, resolveOrigins m ds = .ok origins := by
  induction ds with
  | nil => exact ⟨[], rfl⟩
  | cons d ds ih =>
    obtain ⟨hd, hds⟩ := List.forall_mem_cons.mp hds
    obtain ⟨origin, horigin⟩ := exists_originClass hd
    obtain ⟨origins, horigins⟩ := ih hds
    refine ⟨origin :: origins, ?_⟩
    rw [resolveOrigins, horigin, horigins]
    rfl

theorem resolveOrigins_eq_error {before after : List Dependency}
    (hbefore : ∀ d ∈ before, ∀ fault, ¬ m.UserFault d fault)
    (hd : m.UserFault d fault) :
    resolveOrigins m (before ++ d :: after) = .error fault := by
  induction before with
  | nil =>
    obtain ⟨missing⟩ := hd
    rw [List.nil_append, resolveOrigins, resolve_of_none missing]
    rfl
  | cons d' before ih =>
    obtain ⟨hd', hbefore⟩ := List.forall_mem_cons.mp hbefore
    obtain ⟨origin, horigin⟩ := exists_originClass hd'
    rw [List.cons_append, resolveOrigins, horigin, ih hbefore]
    rfl

theorem ends_checkUsers (markers : List String) (complaint : String) {c : Element}
    (h : ∀ d ∈ m.dependenciesInto c.id, ∀ fault, ¬ m.UserFault d fault) :
    Ends (checkUsers m markers complaint c) := by
  obtain ⟨origins, horigins⟩ := exists_resolveOrigins h
  have husers : dependentClasses m c.id = .ok (firstSeenBy (·.id) [] origins) := by
    rw [dependentClasses, horigins]
    rfl
  exact .after_lookup husers (ends_emit _)

/-- All users are looked up before anything is said of them. -/
theorem breaksAtFirst_checkUsers (m : CodeModel) (markers : List String)
    (complaint : String) (c : Element) :
    BreaksAtFirst (checkUsers m markers complaint c) (m.dependenciesInto c.id)
      m.UserFault fun _ found => found = [] := by
  refine breaksAtFirst (ends_checkUsers markers complaint) ?_
  intro before d after fault hds hbefore hd
  have husers : dependentClasses m c.id = .error fault := by
    rw [dependentClasses, hds, resolveOrigins_eq_error hbefore hd]
    rfl
  exact ⟨[], breaks_lookup husers _, rfl⟩

/-! ### All of them -/

/-- **Checks that follow dependencies break off at the first fault.**  On any
model and any element, the check on what a type uses breaks off if and only if
one of the uses has a `TargetFault`, and then with the fault of the first; the
events it leaves tell of the earlier uses that end in a type with the property,
all of them satisfactions.  The check on accesses does so at the first
`CallFault`, and leaves the judgements on all accesses before it.  The two checks
on the users of a type do so at the first `UserFault`, and leave nothing. -/
theorem breaks_at_first_fault (m : CodeModel) (c : Element) :
    (∀ that, BreaksAtFirst ((dependOn that).check m c) (m.dependenciesFrom c.id)
      (m.TargetFault that) fun before found =>
        List.Forall₂ (m.Tells .satisfied) (before.filter (m.endsIn that)) found)
    ∧ (∀ marker, BreaksAtFirst ((accessedUnder marker).check m c)
      (m.callsFrom c.id ++ m.callsTo c.id) m.CallFault fun before found =>
        List.Forall₂ (m.Judges marker c) before found)
    ∧ (∀ marker, BreaksAtFirst ((accessedOnlyBy marker).check m c)
      (m.dependenciesInto c.id) m.UserFault fun _ found => found = [])
    ∧ ∀ markers, BreaksAtFirst ((accessedOnlyByAny markers).check m c)
      (m.dependenciesInto c.id) m.UserFault fun _ found => found = [] :=
  ⟨fun that => breaksAtFirst_checkDependOn m that c,
    fun marker => breaksAtFirst_checkCalls m marker c _,
    fun marker => breaksAtFirst_checkUsers m [marker] _ c,
    fun markers => breaksAtFirst_checkUsers m markers _ c⟩

end Condition

end Conformance
