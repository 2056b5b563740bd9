/-
Conformance/Proofs/Readings.lean

What the rules of the catalog say about declarations.

A rule is run on a code base, with its ids, stubs and indexes.  What comes out
can be read off the declarations: `r.Reads subjects complaints` says that
whatever code base depicts declarations `cs`, the rule selects as many elements
as there are `subjects cs`, and complains of them one after the other as
`complaints cs` says.  There are five readings for the seven rules:

* `forbiddenUses`: each use of a forbidden type, made in another one;
* `missingConstructor`: a type without a public empty constructor;
* `callbackFaults`: a method that returns or takes something;
* `unprotectedCalls`: each access from another type's code that carries no
  marker, and whose type carries none either;
* `unmarkedUsers`: each other type that uses the subject and is not marked.

They speak of the code by name only, so that comparing two code bases becomes
comparing their declarations.
-/
import Conformance.Catalog
import Conformance.Proofs.Answers
import Conformance.Proofs.Checks
import Conformance.Proofs.Scans

namespace Conformance

open Check

/-! ### Readings -/

/-- Whatever code base shows the declarations, the rule is about these subjects
and complains of each of them like this. -/
def Rule.Reads {σ : Type} (r : Rule) (subjects : List ClassDecl → List σ)
    (complaints : List ClassDecl → σ → List String) : Prop :=
  ∀ ⦃b : CodeBase⦄ ⦃cs : List ClassDecl⦄, b.Depicts cs →
    ∃ events, r.run b.model = .ok ((subjects cs).length, events)
      ∧ Event.complaints events = (subjects cs).flatMap (complaints cs)

/-- Where a rule has as many subjects in two lots of declarations, it selects
nothing in either, or there are two verdicts that complain as it reads. -/
theorem Rule.Reads.compare {σ : Type} {r : Rule}
    {subjects : List ClassDecl → List σ}
    {complaints : List ClassDecl → σ → List String}
    (hr : r.Reads subjects complaints) {b b' : CodeBase} {cs cs' : List ClassDecl}
    (hb : b.Depicts cs) (hb' : b'.Depicts cs')
    (hlen : (subjects cs).length = (subjects cs').length) (config : Config) :
    (r.evaluate b.model config
        = .error (.emptySelection r.description r.scope.noun)
      ∧ r.evaluate b'.model config
        = .error (.emptySelection r.description r.scope.noun))
    ∨ ∃ v v', r.evaluate b.model config = .ok v
      ∧ r.evaluate b'.model config = .ok v' ∧ v.checked = v'.checked
      ∧ v.violations.map (·.message) = (subjects cs).flatMap (complaints cs)
      ∧ v'.violations.map (·.message) = (subjects cs').flatMap (complaints cs') := by
  obtain ⟨events, hrun, hcomplaints⟩ := hr hb
  obtain ⟨events', hrun', hcomplaints'⟩ := hr hb'
  rw [← hlen] at hrun'
  rcases Rule.evaluate_alike hrun hrun' with hempty | ⟨v, v', hv, hv', hchecked, rfl, rfl⟩
  · exact Or.inl hempty
  · exact Or.inr ⟨v, v', hv, hv', hchecked, hcomplaints, hcomplaints'⟩

/-- Whether an annotation of a given type stands on the type. -/
def ClassDecl.isAnnotatedWith (c : ClassDecl) (marker : String) : Bool :=
  c.annotations.any fun a => a.typeName == marker

/-- Whether an annotation of a given type stands on the member. -/
def MemberDecl.isAnnotatedWith (m : MemberDecl) (marker : String) : Bool :=
  m.annotations.any fun a => a.typeName == marker

/-- A rule on types reads as its condition does on each of them. -/
theorem Rule.reads_classes {r : Rule} {selected : ClassDecl → Bool}
    {complaints : List ClassDecl → ClassDecl → List String}
    (hscope : r.scope = .classes)
    (hsel : ∀ (b : CodeBase) c, r.selects b.model (b.typeElement c) = selected c)
    (h : ∀ {b : CodeBase} {cs}, b.Depicts cs → ∀ c ∈ cs,
      Complains (r.condition.check b.model (b.typeElement c)) (complaints cs c)) :
    r.Reads (·.filter selected) complaints := by
  intro b cs hb
  have hR : List.Forall₂ (fun c e => c ∈ cs ∧ e = b.typeElement c) cs
      (r.scope.select b.model) := by
    rw [hscope, show Scope.select b.model .classes = _ from hb.classes_eq,
      List.forall₂_map_right_iff, List.forall₂_same]
    exact fun c hc => ⟨hc, rfl⟩
  refine r.run_of_complains hR ?_ ?_
  · rintro c e ⟨-, rfl⟩
    exact hsel b c
  · rintro c e ⟨hc, rfl⟩ -
    exact h hb c hc

/-! ### Forbidden uses -/

/-- The uses of other types whose names are forbidden. -/
def forbiddenUses (forbidden : String → Bool) (c : ClassDecl) : List String :=
  ((c.uses.filter fun u => !(u.owner.name == u.targetClass)).filter
    fun u => forbidden u.targetClass).map (·.describe)

section Forbidden

variable {b : CodeBase} {cs : List ClassDecl} {that : Predicate}
  {forbidden : String → Bool}
  (hthat : ∀ e, e.kind = .type → that.holds b.model e = forbidden e.fullName)

include hthat

theorem yields_checkTarget (hb : b.Sound) {u : Use} {d : Dependency}
    (hu : b.Records u d) :
    Yields (Condition.checkTarget b.model that d) (forbidden u.targetClass)
      (if forbidden u.targetClass then [.satisfied (.edge d.id) u.describe]
        else []) := by
  obtain ⟨t, ht, hkind, hname⟩ := hu.resolve_targetClass hb
  obtain ⟨e, he, hfull⟩ := hu.resolve_target hb
  have hyields := Condition.yields_checkTarget ht (hu.resolve_origin hb)
    (hu.resolve_originClass hb) he that
  rw [hthat t hkind, hname, hu.describe_eq hfull] at hyields
  exact hyields

/-- Every dependency on a forbidden type is reported, and nothing else is. -/
theorem yields_checkTargets (hb : b.Sound) {us : List Use}
    {ds : List Dependency} (h : List.Forall₂ b.Records us ds) (found : Bool) :
    ∃ events, Yields (Condition.checkTargets b.model that found ds)
        (found || us.any fun u => forbidden u.targetClass) events
      ∧ Event.complaints (events.map Event.flip)
        = (us.filter fun u => forbidden u.targetClass).map (·.describe) := by
  induction h generalizing found with
  | nil =>
    refine ⟨[], ?_, rfl⟩
    rw [List.any_nil, Bool.or_false]
    exact yields_pure found
  | @cons u d us ds hu _ ih =>
    obtain ⟨events, hevents, hcomplaints⟩ := ih (found || forbidden u.targetClass)
    rw [List.any_cons, ← Bool.or_assoc]
    refine ⟨_, (yields_checkTarget hthat hb hu).bind hevents, ?_⟩
    rw [List.map_append, Event.complaints_append, hcomplaints, List.filter_cons]
    split <;> rfl

/-- Where using a type is forbidden, each use is complained of. -/
theorem complains_never_dependOn (hb : b.Depicts cs) {c : ClassDecl}
    (hc : c ∈ cs) :
    Complains ((Condition.never (.dependOn that)).check b.model (b.typeElement c))
      (forbiddenUses forbidden c) := by
  obtain ⟨events, hevents, hcomplaints⟩ := yields_checkTargets hthat hb.sound
    (hb.dependenciesFrom_records hc) false
  -- a type that uses nothing forbidden satisfies the negation
  have hcheck : ∀ found, Yields (Condition.checkTargets b.model that false
      (b.model.dependenciesFrom (b.typeElement c).id)) found events →
      ∃ more, Yields (Condition.checkDependOn b.model that (b.typeElement c)) ()
        (events ++ more) ∧ Event.complaints (more.map Event.flip) = [] := by
    intro found hfound
    cases found with
    | false => exact ⟨_, hfound.bind (yields_emit _), rfl⟩
    | true => exact ⟨[], hfound.bind (yields_pure ()), rfl⟩
  obtain ⟨more, hmore, hnone⟩ := hcheck _ hevents
  refine ⟨_, hmore.aside.bind (yields_emit _), ?_⟩
  rw [List.nil_append, List.map_append, Event.complaints_append, hnone,
    hcomplaints, List.append_nil, forbiddenUses]

end Forbidden

/-! ### Constructors and callbacks -/

theorem member_beq (kind kind' : MemberKind) :
    (ElementKind.member kind == .member kind') = (kind == kind') := by
  cases kind <;> cases kind' <;> rfl

/-- A constructor without parameters. -/
def MemberDecl.isEmptyConstructor (m : MemberDecl) : Bool :=
  m.kind == .constructor && m.parameters.isEmpty

/-- The complaint about a type without a public empty constructor. -/
def missingConstructor (c : ClassDecl) : List String :=
  if (c.allMembers.find? (·.isEmptyConstructor)).any (·.visibility == .public)
  then []
  else ["Class " ++ c.name ++ " has no public empty constructor"]

theorem any_zeroArgConstructor {b : CodeBase} {cs : List ClassDecl}
    (hb : b.Depicts cs) {c : ClassDecl} (hc : c ∈ cs) :
    (b.model.zeroArgConstructor? (b.idOf c.name)).any (·.isPublic)
      = (c.allMembers.find? (·.isEmptyConstructor)).any (·.visibility == .public) := by
  obtain ⟨ms, hms, hmembers⟩ := hb.membersOf_eq hc
  -- stubs are no members here, so what is found is declared
  have hfind : b.model.zeroArgConstructor? (b.idOf c.name)
      = (ms.find? (·.decl.isEmptyConstructor)).map fun m =>
        .ofMember m.id (b.idOf c.name) c.name m.decl := by
    show (b.membersOf (b.idOf c.name)).find? _ = _
    rw [hmembers, List.find?_map]
    simp [Function.comp_def, Element.ofMember, MemberDecl.isEmptyConstructor,
      member_beq]
  rw [hfind, ← hms, List.find?_map, Option.any_map, Option.any_map]
  rfl

theorem complains_publicEmptyConstructor {b : CodeBase} {cs : List ClassDecl}
    (hb : b.Depicts cs) {c : ClassDecl} (hc : c ∈ cs) :
    Complains (Condition.publicEmptyConstructor.check b.model (b.typeElement c))
      (missingConstructor c) := by
  rw [missingConstructor, ← any_zeroArgConstructor hb hc]
  exact complains_unless _ _ _

/-- The declared methods, each with the name of its type. -/
def declaredMethods (cs : List ClassDecl) : List (String × MemberDecl) :=
  cs.flatMap fun c =>
    (c.allMembers.filter (·.kind == .method)).map fun m => (c.name, m)

/-- What is wrong with a method that should return and take nothing. -/
def callbackFaults (m : String × MemberDecl) : List String :=
  (if m.2.returnType.getD "void" = "void" then []
    else ["Method " ++ m.2.fullName m.1 ++ " is not a void but returns a "
      ++ m.2.returnType.getD "void"])
  ++ if m.2.parameters.isEmpty then []
    else ["Method " ++ m.2.fullName m.1
      ++ " should be without any parameter but has "
      ++ toString m.2.parameters.length ++ " parameter(s)"]

/-- The element of a declared member, wherever it stands. -/
def IsShownAs (m : String × MemberDecl) (e : Element) : Prop :=
  ∃ i o, e = .ofMember i o m.1 m.2

/-- The methods of a code base are the declared ones, in order. -/
theorem forall₂_methods {b : CodeBase} {cs : List ClassDecl} (hb : b.Depicts cs) :
    List.Forall₂ IsShownAs (declaredMethods cs) b.model.methods := by
  have hclass : ∀ c ∈ cs, List.Forall₂ IsShownAs
      ((c.allMembers.filter (·.kind == .method)).map fun m => (c.name, m))
      ((b.membersOf (b.idOf c.name)).filter fun e =>
        e.kind == .member .method && !e.isStub) := by
    intro c hc
    obtain ⟨ms, hms, hmembers⟩ := hb.membersOf_eq hc
    rw [← hms, hmembers, List.forall₂_map_left_iff, List.filter_map,
      List.filter_map, List.forall₂_map_left_iff, List.forall₂_map_right_iff]
    simp only [Function.comp_def, Element.ofMember, member_beq, Bool.not_false,
      Bool.and_true]
    exact List.forall₂_same.mpr fun m _ => ⟨m.id, b.idOf c.name, rfl⟩
  show List.Forall₂ IsShownAs (declaredMethods cs)
    ((b.classes.flatMap fun e => b.membersOf e.id).filter _)
  rw [hb.classes_eq, List.filter_flatMap, List.flatMap_map, declaredMethods]
  have hsame : List.Forall₂ (fun c c' => c ∈ cs ∧ c = c') cs cs :=
    List.forall₂_same.mpr fun c hc => ⟨hc, rfl⟩
  refine List.rel_flatMap hsame ?_
  rintro c _ ⟨hc, rfl⟩
  exact hclass c hc

theorem complains_voidWithoutParameters (model : CodeModel)
    {m : String × MemberDecl} {e : Element} (h : IsShownAs m e) :
    Complains (Condition.voidWithoutParameters.check model e)
      (callbackFaults m) := by
  obtain ⟨i, o, rfl⟩ := h
  exact (complains_unless _ _ _).seq (complains_unless _ _ _)

/-! ### Unprotected calls -/

/-- Neither the code that makes the use nor its type carries the marker, and it
is not code of the type with the given name. -/
def Use.isUnprotected (marker name : String) (u : Use) : Bool :=
  !(u.owner.name == name) && !(u.member.any (·.isAnnotatedWith marker))
    && !u.owner.isAnnotatedWith marker

/-- The complaint about an unprotected access. -/
def Use.protest (marker : String) (u : Use) : String :=
  "Neither Class " ++ u.owner.name ++ " or Method " ++ u.originName
    ++ " are annotated by " ++ Condition.label marker

/-- The unprotected accesses to a type. -/
def unprotectedCalls (marker : String) (cs : List ClassDecl) (c : ClassDecl) :
    List String :=
  (((usesOf cs c.name).filter (·.kind.isAccess)).filter
    (·.isUnprotected marker c.name)).map (·.protest marker)

/-- Only code makes accesses. -/
theorem Use.Proper.of_isAccess {c : ClassDecl} {u : Use} (hu : u.Proper c)
    (h : u.kind.isAccess = true) :
    ∃ m, u.member = some m ∧ m.kind.isCodeUnit = true := by
  rcases ht : u.target with _ | r
  · rw [hu.of_type ht] at h
    cases h
  · exact (hu.of_member r ht).2

section Calls

variable {b : CodeBase} {cs : List ClassDecl} {c : ClassDecl} {u : Use}
  {d : Dependency} {marker : String}

theorem complaints_judgeCall (hb : b.Depicts cs) (hc : c ∈ cs)
    (hu : b.Records u d) {m : MemberDecl} (hm : u.member = some m) :
    Event.complaints [Condition.judgeCall marker (b.typeElement c) d
        (b.originElement u d.origin) (b.typeElement u.owner)]
      = if u.isUnprotected marker c.name then [u.protest marker] else [] := by
  have hid : (b.typeElement u.owner).id = (b.typeElement c).id
      ↔ u.owner.name = c.name := by
    have hbeq := hu.originClass_beq hb.sound (hb.isType hc)
    rw [Bool.eq_iff_iff, beq_iff_eq, beq_iff_eq] at hbeq
    rw [hb.sound.indexed.typeElement_eq hu.origin.1]
    exact hbeq
  have hannotated : (b.originElement u d.origin).isAnnotatedWith marker
      = m.isAnnotatedWith marker := by
    simp only [CodeBase.originElement, hm]
    rfl
  have htype : (b.typeElement u.owner).isAnnotatedWith marker
      = u.owner.isAnnotatedWith marker := rfl
  unfold Condition.judgeCall Use.isUnprotected Use.protest
  rw [hannotated, htype, CodeBase.fullName_originElement, hm, Option.any_some]
  by_cases hown : u.owner.name = c.name
  · rw [if_pos (hid.mpr hown), hown, beq_self_eq_true]
    rfl
  · rw [if_neg (mt hid.mp hown), beq_eq_false_iff_ne.mpr hown]
    rcases m.isAnnotatedWith marker with _ | _
    · rcases u.owner.isAnnotatedWith marker with _ | _
      · rfl
      · rfl
    · rfl

theorem yields_checkCall (hb : b.Sound) (hu : b.Records u d) {m : MemberDecl}
    (hm : u.member = some m) (hcode : m.kind.isCodeUnit = true) (e : Element) :
    Yields (Condition.checkCall b.model marker e d) ()
      [Condition.judgeCall marker e d (b.originElement u d.origin)
        (b.typeElement u.owner)] := by
  have hkind : (b.originElement u d.origin).kind.isCodeUnit = true := by
    rw [CodeBase.kind_originElement, Use.originKind, hm]
    exact hcode
  exact Condition.yields_checkCall (hu.resolve_origin hb) hkind
    (hu.ownerOf_origin hb hm) marker e

/-- Each unprotected access is complained of. -/
theorem complains_checkCalls (hb : b.Depicts cs) (hc : c ∈ cs) {us : List Use}
    {ds : List Dependency} (h : List.Forall₂ b.Records us ds)
    (hcode : ∀ u ∈ us, ∃ m, u.member = some m ∧ m.kind.isCodeUnit = true) :
    Complains (Condition.checkCalls b.model marker (b.typeElement c) ds)
      ((us.filter (·.isUnprotected marker c.name)).map (·.protest marker)) := by
  induction h with
  | nil => exact complains_pure
  | @cons u d us ds hu _ ih =>
    obtain ⟨m, hm, hcodem⟩ := hcode u List.mem_cons_self
    have hrest := ih fun u' hu' => hcode u' (List.mem_cons_of_mem u hu')
    have hfirst : Complains (Condition.checkCall b.model marker (b.typeElement c) d)
        (if u.isUnprotected marker c.name then [u.protest marker] else []) :=
      ⟨_, yields_checkCall hb.sound hu hm hcodem _, complaints_judgeCall hb hc hu hm⟩
    have hall := hfirst.seq (f := fun _ => Condition.checkCalls b.model marker
      (b.typeElement c) ds) hrest
    rw [List.filter_cons]
    split at hall
    · rename_i hun
      rw [if_pos hun]
      exact hall
    · rename_i hun
      rw [if_neg hun]
      exact hall

theorem complains_accessedUnder (hb : b.Depicts cs) (hc : c ∈ cs) :
    Complains ((Condition.accessedUnder marker).check b.model (b.typeElement c))
      (unprotectedCalls marker cs c) := by
  -- the calls that the type makes itself are checked too, and pass
  have hown : (c.uses.filter (·.kind.isAccess)).filter
      (·.isUnprotected marker c.name) = [] := by
    refine List.filter_eq_nil_iff.mpr fun u hu => ?_
    have howner := (ClassDecl.proper_uses (List.mem_filter.mp hu).1).owner_eq
    simp [Use.isUnprotected, howner]
  have hcalls := List.rel_append (hb.callsFrom_records hc) (hb.callsTo_records hc)
  rw [unprotectedCalls, ← List.nil_append (List.filter _ _), ← hown,
    ← List.filter_append]
  refine complains_checkCalls hb hc hcalls fun u hu => ?_
  rcases List.mem_append.mp hu with hu | hu
  · obtain ⟨hu, haccess⟩ := List.mem_filter.mp hu
    exact (ClassDecl.proper_uses hu).of_isAccess haccess
  · obtain ⟨hu, haccess⟩ := List.mem_filter.mp hu
    obtain ⟨c', -, hu⟩ := List.mem_flatMap.mp (List.mem_filter.mp hu).1
    exact (ClassDecl.proper_uses hu).of_isAccess haccess

end Calls

/-! ### Unmarked users -/

section FirstSeen

variable {α β κ : Type} [BEq κ] [LawfulBEq κ] {key : α → κ} {seen : List κ}

theorem firstSeenBy_append_of_seen {as : List α} (h : ∀ a ∈ as, key a ∈ seen)
    (rest : List α) :
    firstSeenBy key seen (as ++ rest) = firstSeenBy key seen rest := by
  induction as with
  | nil => rfl
  | cons a as ih =>
    have ha : seen.contains (key a) = true :=
      List.contains_iff_mem.mpr (h a List.mem_cons_self)
    rw [List.cons_append, firstSeenBy, if_pos ha]
    exact ih fun a' ha' => h a' (List.mem_cons_of_mem a ha')

/-- Of blocks that each repeat one entry, one entry per block is kept. -/
theorem firstSeenBy_flatMap {f : β → α} {block : β → List α} {bs : List β}
    (hblock : ∀ x ∈ bs, ∀ a ∈ block x, a = f x)
    (hnd : (bs.map fun x => key (f x)).Nodup)
    (hseen : ∀ x ∈ bs, key (f x) ∉ seen) :
    firstSeenBy key seen (bs.flatMap block)
      = (bs.filter fun x => !(block x).isEmpty).map f := by
  induction bs generalizing seen with
  | nil => rfl
  | cons x bs ih =>
    have hblock' := fun y hy => hblock y (List.mem_cons_of_mem x hy)
    rw [List.map_cons, List.nodup_cons] at hnd
    rw [List.flatMap_cons]
    rcases hx : block x with _ | ⟨a, as⟩
    · -- an empty block leaves what has been seen as it is
      rw [List.nil_append, List.filter_cons_of_neg (by simp [hx])]
      exact ih hblock' hnd.2 fun y hy => hseen y (List.mem_cons_of_mem x hy)
    · have hall := hblock x List.mem_cons_self
      rw [hx] at hall
      obtain rfl := hall a List.mem_cons_self
      have hnew : ¬ seen.contains (key (f x)) = true := by
        rw [List.contains_iff_mem]
        exact hseen x List.mem_cons_self
      rw [List.cons_append, firstSeenBy, if_neg hnew,
        List.filter_cons_of_pos (by simp [hx]), List.map_cons]
      congr 1
      -- the rest of the block repeats the entry just seen
      rw [firstSeenBy_append_of_seen]
      · refine ih hblock' hnd.2 fun y hy hmem => ?_
        rcases List.mem_cons.mp hmem with heq | hmem
        · exact hnd.1 (heq ▸ List.mem_map_of_mem hy)
        · exact hseen y (List.mem_cons_of_mem x hy) hmem
      · intro a ha
        rw [hall a (List.mem_cons_of_mem _ ha)]
        exact List.mem_cons_self

end FirstSeen

/-- The other types that use a type. -/
def usersOf (cs : List ClassDecl) (c : ClassDecl) : List ClassDecl :=
  cs.filter fun user => user.uses.any fun u =>
    u.targetClass == c.name && !(u.owner.name == u.targetClass)

/-- Whether annotations lead from a type to a marker. -/
def ClassDecl.isMetaAnnotatedWith (cs : List ClassDecl) (c : ClassDecl)
    (marker : String) : Bool :=
  (annotationModel cs).isMetaAnnotatedWith (.ofClass 0 c) marker

/-- The complaints about users without any of the markers. -/
def unmarkedUsers (markers : List String) (complaint : String)
    (cs : List ClassDecl) (c : ClassDecl) : List String :=
  ((usersOf cs c).filter fun user =>
    !markers.any (user.isMetaAnnotatedWith cs)).map fun user =>
      "Class " ++ user.name ++ " " ++ complaint

section Users

variable {b : CodeBase} {cs : List ClassDecl} {c : ClassDecl}

/-- The types found to use what has an id are the declared types in which a
dependency on it starts, each once, in the order of their declarations. -/
theorem CodeBase.Depicts.dependentClasses_eq (hb : b.Depicts cs) (i : ElementId) :
    Condition.dependentClasses b.model i
      = .ok (b.classes.filter fun user => b.dependencies.any fun d =>
        d.originClass == user.id && d.enters i) := by
  -- what enters stands in blocks, one for each declared type
  have hinto : b.model.dependenciesInto i
      = b.classes.flatMap fun user => (b.outgoing user.id).filter (·.enters i) := by
    rw [hb.sound.indexed.dependenciesInto_eq, ← hb.flatMap_outgoing,
      List.filter_flatMap]
  have horigins : List.Forall₂ (fun d user => b.model.resolve d.originClass = .ok user)
      (b.model.dependenciesInto i)
      (b.classes.flatMap fun user =>
        ((b.outgoing user.id).filter (·.enters i)).map fun _ => user) := by
    rw [hinto]
    refine List.rel_flatMap (R := fun e e' => e ∈ b.classes ∧ e = e')
      (List.forall₂_same.mpr fun user huser => ⟨huser, rfl⟩) ?_
    rintro user _ ⟨huser, rfl⟩
    rw [List.forall₂_map_right_iff, List.forall₂_same]
    intro d hd
    have hstarts : d ∈ b.outgoing user.id := (List.mem_filter.mp hd).1
    rw [hb.sound.indexed.outgoing_eq] at hstarts
    rw [hb.sound.indexed.classes_eq] at huser
    rw [beq_iff_eq.mp (List.mem_filter.mp hstarts).2]
    exact hb.sound.indexed.resolve_of_mem (List.mem_filter.mp huser).1
  have hids : (b.classes.map (·.id)).Nodup := by
    rw [hb.classes_eq, List.map_map]
    exact hb.nodup_ids
  rw [Condition.dependentClasses, Condition.resolveOrigins_eq_ok horigins]
  refine congrArg Except.ok ?_
  rw [firstSeenBy_flatMap (f := fun user => user) ?_ hids (by simp), List.map_id']
  · -- a block is kept if there is something in it
    apply List.filter_congr
    intro user _
    rw [hb.sound.indexed.outgoing_eq, Bool.eq_iff_iff]
    simp [and_comm]
  · intro user _ e he
    obtain ⟨d, -, rfl⟩ := List.mem_map.mp he
    rfl

/-- The types found to use a declared type are its users. -/
theorem dependentClasses_eq (hb : b.Depicts cs) (hc : c ∈ cs) :
    Condition.dependentClasses b.model (b.idOf c.name)
      = .ok ((usersOf cs c).map b.typeElement) := by
  rw [hb.dependentClasses_eq, hb.classes_eq, List.filter_map]
  refine congrArg (fun users : List ClassDecl => Except.ok (users.map b.typeElement)) ?_
  apply List.filter_congr
  intro user huser
  -- what starts in the user records what its declaration uses
  have hany : user.uses.any (fun u =>
        u.targetClass == c.name && !(u.owner.name == u.targetClass))
      = (b.outgoing (b.idOf user.name)).any (·.enters (b.idOf c.name)) := by
    refine any_of_forall₂ (hb.outgoing_records huser) fun u d hu => ?_
    rw [Dependency.enters, hu.targetClass_beq hb.sound (hb.isType hc),
      hu.isSelfEdge_eq hb.sound]
  rw [hany, hb.sound.indexed.outgoing_eq, List.any_filter]
  rfl

theorem complains_checkUsers (hb : b.Depicts cs) (hc : c ∈ cs)
    (markers : List String) (complaint : String) :
    Complains (Condition.checkUsers b.model markers complaint (b.typeElement c))
      (unmarkedUsers markers complaint cs c) := by
  refine ⟨_, .after_lookup (dependentClasses_eq hb hc) (yields_emit _), ?_⟩
  rw [Event.complaints_map_violated, List.filter_map, List.map_map, unmarkedUsers]
  have hmarked : ∀ user : ClassDecl, b.model.isMetaAnnotatedWith (b.typeElement user)
      = user.isMetaAnnotatedWith cs := by
    intro user
    funext marker
    exact hb.isMetaAnnotatedWith_eq _ marker
  simp only [Function.comp_def, hmarked]
  rfl

end Users

/-! ### The catalog -/

namespace Catalog

theorem forall_allRules {P : Rule → Prop} :
    (∀ r ∈ allRules, P r) ↔ P noJUnit4 ∧ P noJavaUtilDate
      ∧ P entitiesHavePublicEmptyConstructor
      ∧ P lifeCycleCallbacksCorrectlyDeclared
      ∧ P repositoriesAccessedByTransactionalCode
      ∧ P repositoriesAccessedByServices
      ∧ P repositoriesAccessedByServicesOrControllers := by
  simp [allRules, standardRules, jpaRules, springRules]

theorem reads_noJUnit4 :
    noJUnit4.Reads (·.filter fun _ => true) fun _ =>
      forbiddenUses fun name => Package.admits "org.junit" (Name.package name) := by
  refine Rule.reads_classes rfl (fun _ _ => rfl) fun hb c hc => ?_
  refine complains_never_dependOn (fun e hkind => ?_) hb hc
  show Package.admits "org.junit" e.package = _
  rw [Element.package_of_type hkind]

theorem reads_noJavaUtilDate :
    noJavaUtilDate.Reads (·.filter fun _ => true) fun _ =>
      forbiddenUses (· == "java.util.Date") := by
  refine Rule.reads_classes rfl (fun _ _ => rfl) fun hb c hc => ?_
  exact complains_never_dependOn (fun e _ => rfl) hb hc

theorem reads_entitiesHavePublicEmptyConstructor :
    entitiesHavePublicEmptyConstructor.Reads
      (·.filter (·.isAnnotatedWith entity)) fun _ => missingConstructor := by
  refine Rule.reads_classes rfl (fun _ _ => Bool.and_true _) fun hb c hc => ?_
  exact complains_publicEmptyConstructor hb hc

theorem reads_lifeCycleCallbacksCorrectlyDeclared :
    lifeCycleCallbacksCorrectlyDeclared.Reads
      (fun cs => (declaredMethods cs).filter fun m =>
        lifeCycleCallbacks.any m.2.isAnnotatedWith) fun _ => callbackFaults := by
  intro b cs hb
  refine Rule.run_of_complains (forall₂_methods hb) ?_ ?_
  · rintro m e ⟨i, o, rfl⟩
    exact Bool.and_true _
  · intro m e hme _
    exact complains_voidWithoutParameters b.model hme

theorem selects_repository {r : Rule}
    (hr : r.filters = [.annotatedWith repository]) (b : CodeBase) (c : ClassDecl) :
    r.selects b.model (b.typeElement c) = c.isAnnotatedWith repository := by
  rw [Rule.selects, hr]
  exact Bool.and_true _

theorem reads_repositoriesAccessedByTransactionalCode :
    repositoriesAccessedByTransactionalCode.Reads
      (·.filter (·.isAnnotatedWith repository)) (unprotectedCalls transactional) := by
  refine Rule.reads_classes rfl (selects_repository rfl) fun hb c hc => ?_
  exact complains_accessedUnder hb hc

theorem reads_repositoriesAccessedByServices :
    repositoriesAccessedByServices.Reads (·.filter (·.isAnnotatedWith repository))
      (unmarkedUsers [service]
        ("is not annotated by " ++ Condition.label service)) := by
  refine Rule.reads_classes rfl (selects_repository rfl) fun hb c hc => ?_
  exact complains_checkUsers hb hc _ _

theorem reads_repositoriesAccessedByServicesOrControllers :
    repositoriesAccessedByServicesOrControllers.Reads
      (·.filter (·.isAnnotatedWith repository))
      (unmarkedUsers [service, controller]
        ("is annotated neither by " ++ Condition.labels [service, controller])) := by
  refine Rule.reads_classes rfl (selects_repository rfl) fun hb c hc => ?_
  exact complains_checkUsers hb hc _ _

end Catalog

end Conformance
