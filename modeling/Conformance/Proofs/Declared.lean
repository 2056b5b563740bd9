/-
Conformance/Proofs/Declared.lean

What the declaring steps of a build do, and when they succeed.

A blueprint is *valid* if every member given apart names a declared type, no
type is unnamed or declared twice, and within each type no member is unnamed or
declared twice.  Steps 1 to 3 succeed exactly on valid blueprints
(`build_eq_ok_iff`), and then what they do is plain: every type takes the
members given apart (`Blueprint.declarations`), and types and members are
entered one after the other under consecutive ids (`placedFrom`).

The outcome is the table `declaredTable`: all types, then type by type their
members with the implicit constructor last.  The code base is sound at that
point (`sound_declaredBase`).  Written members are told apart by their full names,
which is more than `Orderly` needs; the implicit constructor is told apart by
being the only constructor.
-/
import Conformance.Proofs.Sound

namespace Conformance

/-- A computation succeeds if its first part does and what follows does. -/
theorem bind_eq_ok {ε α β : Type} {x : Except ε α} {f : α → Except ε β} {r : β} :
    (x >>= f) = .ok r ↔ ∃ a, x = .ok a ∧ f a = .ok r := by
  cases x <;> simp [bind, Except.bind]

/-- A computation fails if its first part does. -/
theorem bind_eq_error {ε α β : Type} {x : Except ε α} {e : ε} (h : x = .error e)
    (f : α → Except ε β) : (x >>= f) = .error e := by
  rw [h]
  rfl

/-! ### Valid blueprints -/

/-- The members that are given for a type apart from it, in order. -/
def lateMembersOf (late : List (String × MemberDecl)) (name : String) :
    List MemberDecl :=
  (late.filter fun om => om.1 == name).map (·.2)

/-- A type with the members given apart from it, after its own. -/
def ClassDecl.withLate (late : List (String × MemberDecl)) (c : ClassDecl) :
    ClassDecl :=
  { c with members := c.members ++ lateMembersOf late c.name }

/-- The declared types, each with all its members. -/
def Blueprint.declarations (p : Blueprint) : List ClassDecl :=
  p.classes.map (·.withLate p.lateMembers)

/-- All members of a type: the written ones, and then the implicit
constructor. -/
def ClassDecl.allMembers (c : ClassDecl) : List MemberDecl :=
  c.members ++ c.implicitConstructor?.toList

/-- What tells a written member from the others of its type: its full name,
and whether it is a field. -/
def MemberDecl.signature (owner : String) (m : MemberDecl) : Bool × String :=
  (m.kind == .field, m.fullName owner)

/-- Two written members would answer to the same references. -/
def MemberDecl.Rivals (m m' : MemberDecl) : Prop :=
  m.kind = m'.kind ∧ m.name = m'.name
    ∧ (m.kind = .field ∨ m.parameters = m'.parameters)

/-- The members of a type are named and told apart. -/
structure ClassDecl.MembersValid (c : ClassDecl) : Prop where
  named : ∀ m ∈ c.members, m.name ≠ ""
  nodup : (c.members.map (·.signature c.name)).Nodup

/-- The declarations of a blueprint describe a code base. -/
structure Blueprint.Valid (p : Blueprint) : Prop where
  owners : ∀ om ∈ p.lateMembers, om.1 ∈ p.classes.map (·.name)
  named : ∀ c ∈ p.classes, c.name ≠ ""
  nodup : (p.classes.map (·.name)).Nodup
  members : ∀ c ∈ p.declarations, c.MembersValid

@[simp] theorem ClassDecl.name_withLate (late : List (String × MemberDecl))
    (c : ClassDecl) : (c.withLate late).name = c.name := rfl

theorem Blueprint.names_declarations (p : Blueprint) :
    p.declarations.map (·.name) = p.classes.map (·.name) := by
  simp [declarations]

namespace CodeBase

/-! ### Step 1: members given apart -/

/-- A type after one member has been given to the type with a name. -/
def give (owner : String) (m : MemberDecl) (c : ClassDecl) : ClassDecl :=
  if c.name = owner then { c with members := c.members ++ [m] } else c

theorem name_give (owner : String) (m : MemberDecl) (c : ClassDecl) :
    (give owner m c).name = c.name := by
  unfold give
  split <;> rfl

/-- Attaching a member keeps the names of the types, and finds one. -/
theorem names_of_attach {owner : String} {m : MemberDecl}
    {cs cs' : List ClassDecl} (h : attach owner m cs = .ok cs') :
    cs'.map (·.name) = cs.map (·.name) ∧ owner ∈ cs.map (·.name) := by
  induction cs generalizing cs' with
  | nil => cases h
  | cons c cs ih =>
    unfold attach at h
    split at h
    · rename_i hc
      obtain rfl := Except.ok.inj h
      simp [hc]
    · obtain ⟨rest, hrest, heq⟩ := bind_eq_ok.mp h
      obtain rfl := Except.ok.inj heq
      obtain ⟨hnames, howner⟩ := ih hrest
      simp [hnames, howner]

/-- Where names are told apart, the first type of a name is the only one. -/
theorem attach_eq_ok {owner : String} {m : MemberDecl} {cs : List ClassDecl}
    (hnd : (cs.map (·.name)).Nodup) (howner : owner ∈ cs.map (·.name)) :
    attach owner m cs = .ok (cs.map (give owner m)) := by
  induction cs with
  | nil => cases howner
  | cons c cs ih =>
    rw [List.map_cons, List.nodup_cons] at hnd
    unfold attach
    split
    · rename_i hc
      subst hc
      -- the types after the one found have other names
      have hrest : cs.map (give c.name m) = cs := by
        refine (List.map_congr_left fun c' hc' => ?_).trans (List.map_id cs)
        have hne : c'.name ≠ c.name := fun heq =>
          hnd.1 (List.mem_map.mpr ⟨c', hc', heq⟩)
        simp [give, hne]
      rw [List.map_cons, hrest]
      simp [give]
    · rename_i hc
      have hin : owner ∈ cs.map (·.name) := by
        rw [List.map_cons, List.mem_cons] at howner
        exact howner.resolve_left (Ne.symm hc)
      rw [ih hnd.2 hin, List.map_cons]
      simp only [give, if_neg hc]
      rfl

/-- One member more, or one member first and the rest later, is the same. -/
theorem withLate_give (owner : String) (m : MemberDecl)
    (late : List (String × MemberDecl)) (c : ClassDecl) :
    (give owner m c).withLate late = c.withLate ((owner, m) :: late) := by
  unfold give
  split
  · rename_i hc
    simp [ClassDecl.withLate, lateMembersOf, hc]
  · rename_i hc
    have hne : (owner == c.name) = false := by
      simpa using Ne.symm hc
    simp [ClassDecl.withLate, lateMembersOf, hne]

theorem names_of_attachAll {cs cs' : List ClassDecl}
    {late : List (String × MemberDecl)} (h : attachAll cs late = .ok cs') :
    cs'.map (·.name) = cs.map (·.name) := by
  induction late generalizing cs with
  | nil =>
    obtain rfl := Except.ok.inj h
    rfl
  | cons om late ih =>
    obtain ⟨mid, hmid, hrest⟩ := bind_eq_ok.mp h
    rw [ih hrest, (names_of_attach hmid).1]

/-- Where names are told apart, all members given apart join their types
exactly if every one of them has a type to join. -/
theorem attachAll_eq_ok_iff {cs cs' : List ClassDecl}
    {late : List (String × MemberDecl)} (hnd : (cs.map (·.name)).Nodup) :
    attachAll cs late = .ok cs' ↔
      (∀ om ∈ late, om.1 ∈ cs.map (·.name))
        ∧ cs' = cs.map (·.withLate late) := by
  induction late generalizing cs with
  | nil =>
    have hself : cs.map (·.withLate []) = cs := by
      simp [ClassDecl.withLate, lateMembersOf]
    rw [hself]
    simp [attachAll, eq_comm]
  | cons om late ih =>
    obtain ⟨owner, m⟩ := om
    by_cases howner : owner ∈ cs.map (·.name)
    · have hnames : (cs.map (give owner m)).map (·.name) = cs.map (·.name) := by
        simp [name_give]
      have hlate : (cs.map (give owner m)).map (·.withLate late)
          = cs.map (·.withLate ((owner, m) :: late)) := by
        simp [withLate_give]
      show (attach owner m cs >>= fun cs => attachAll cs late) = _ ↔ _
      rw [attach_eq_ok hnd howner]
      show attachAll (cs.map (give owner m)) late = _ ↔ _
      rw [ih (hnames ▸ hnd), hnames, hlate]
      simp only [List.forall_mem_cons, howner, true_and]
    · -- no type to join: neither side can hold
      constructor
      · intro h
        obtain ⟨mid, hmid, -⟩ := bind_eq_ok.mp h
        exact absurd (names_of_attach hmid).2 howner
      · rintro ⟨hall, -⟩
        exact absurd (hall _ List.mem_cons_self) howner

/-! ### Steps 2 and 3, when they succeed -/

/-- Declarations under consecutive ids. -/
def placedFrom {α : Type} (n : ElementId) : List α → List (Placed α)
  | [] => []
  | a :: as => ⟨n, a⟩ :: placedFrom (n + 1) as

/-- Enters types, in order. -/
def addClasses (b : CodeBase) (cs : List ClassDecl) : CodeBase :=
  cs.foldl (fun b c => b.addType (.ofClass b.nextId c)) b

/-- Enters members of one type, in order. -/
def addMembers (c : Placed ClassDecl) (b : CodeBase) (ms : List MemberDecl) :
    CodeBase :=
  ms.foldl (fun b m => b.addMember c.id (.ofMember b.nextId c.id c.decl.name m)) b

/-- Enters all members of types, type by type. -/
def addAllMembers (b : CodeBase) (heads : List (Placed ClassDecl)) : CodeBase :=
  heads.foldl (fun b c => addMembers c b c.decl.allMembers) b

/-- Types with their written members, under consecutive ids; each type's
implicit constructor takes an id too. -/
def placeMembers (n : ElementId) : List (Placed ClassDecl) → List PlacedClass
  | [] => []
  | c :: cs =>
    ⟨c, placedFrom n c.decl.members⟩
      :: placeMembers (n + c.decl.allMembers.length) cs

theorem addClasses_cons (b : CodeBase) (c : ClassDecl) (cs : List ClassDecl) :
    b.addClasses (c :: cs)
      = (b.addType (.ofClass b.nextId c)).addClasses cs := rfl

theorem addMembers_cons (c : Placed ClassDecl) (b : CodeBase) (m : MemberDecl)
    (ms : List MemberDecl) :
    addMembers c b (m :: ms)
      = addMembers c
        (b.addMember c.id (.ofMember b.nextId c.id c.decl.name m)) ms := rfl

theorem addMembers_append (c : Placed ClassDecl) (b : CodeBase)
    (ms ns : List MemberDecl) :
    addMembers c b (ms ++ ns) = addMembers c (addMembers c b ms) ns := by
  simp [addMembers]

theorem nextId_addMembers (c : Placed ClassDecl) (b : CodeBase)
    (ms : List MemberDecl) :
    (addMembers c b ms).nextId = b.nextId + ms.length := by
  induction ms generalizing b with
  | nil => rfl
  | cons m ms ih =>
    rw [addMembers_cons, ih, nextId_addMember, List.length_cons]
    exact Nat.add_right_comm _ _ _

/-- The implicit constructor is entered like a written member. -/
theorem addImplicitConstructor_eq (c : Placed ClassDecl) (b : CodeBase) :
    addImplicitConstructor c b
      = addMembers c b c.decl.implicitConstructor?.toList := by
  unfold addImplicitConstructor
  rcases c.decl.implicitConstructor? with - | m <;> rfl

/-- The keys are told apart, and none has been seen before. -/
def Fresh {κ : Type} (seen : κ → Prop) (keys : List κ) : Prop :=
  keys.Nodup ∧ ∀ k ∈ keys, ¬ seen k

/-- The first key is seen from then on. -/
theorem fresh_cons {κ : Type} {seen : κ → Prop} {k : κ} {keys : List κ} :
    Fresh seen (k :: keys) ↔ ¬ seen k ∧ Fresh (fun k' => k' = k ∨ seen k') keys := by
  unfold Fresh
  rw [List.nodup_cons, List.forall_mem_cons]
  constructor
  · rintro ⟨⟨hk, hnd⟩, hseen, hall⟩
    refine ⟨hseen, hnd, ?_⟩
    rintro k' hk' (rfl | hs)
    · exact hk hk'
    · exact hall k' hk' hs
  · rintro ⟨hseen, hnd, hall⟩
    refine ⟨⟨?_, hnd⟩, hseen, ?_⟩
    · exact fun hk => hall k hk (Or.inl rfl)
    · exact fun k' hk' hs => hall k' hk' (Or.inr hs)

/-- After a type is entered, its name is known too. -/
theorem isSome_classId?_addType (b : CodeBase) (c : ClassDecl) (name : String) :
    ((b.addType (.ofClass b.nextId c)).classId? name).isSome = true
      ↔ name = c.name ∨ (b.classId? name).isSome = true := by
  rw [classId?_addType]
  by_cases hname : name = c.name <;> simp [hname, Element.ofClass]

/-- Types are declared exactly if all are named, told apart and new. -/
theorem declareClasses_eq_ok_iff {b : CodeBase} {cs : List ClassDecl}
    {r : CodeBase × List (Placed ClassDecl)} :
    b.declareClasses cs = .ok r ↔
      (∀ c ∈ cs, c.name ≠ "")
        ∧ Fresh (fun name => (b.classId? name).isSome = true) (cs.map (·.name))
        ∧ r = (b.addClasses cs, placedFrom b.nextId cs) := by
  induction cs generalizing b r with
  | nil =>
    constructor
    · intro h
      exact ⟨by simp, by simp [Fresh], (Except.ok.inj h).symm⟩
    · rintro ⟨-, -, rfl⟩
      rfl
  | cons c cs ih =>
    have hnext : (b.addType (.ofClass b.nextId c)).nextId = b.nextId + 1 :=
      nextId_addType b _
    rw [List.map_cons, fresh_cons, List.forall_mem_cons]
    unfold declareClasses
    split
    · rename_i hempty
      simp [hempty]
    · rename_i hnamed
      split
      · rename_i hdup
        simp [hdup]
      · -- a new name: the rest is declared where this one is taken
        rename_i hnew
        rw [bind_eq_ok]
        simp only [ih, isSome_classId?_addType, hnext]
        constructor
        · rintro ⟨-, ⟨hne, hfresh, rfl⟩, heq⟩
          obtain rfl := Except.ok.inj heq
          exact ⟨⟨hnamed, hne⟩, ⟨hnew, hfresh⟩, rfl⟩
        · rintro ⟨⟨-, hne⟩, ⟨-, hfresh⟩, rfl⟩
          exact ⟨_, ⟨hne, hfresh, rfl⟩, rfl⟩

/-- Members are declared exactly if all are named, told apart and not seen
before. -/
theorem declareMembers_eq_ok_iff {c : Placed ClassDecl} {b : CodeBase}
    {seen : List (Bool × String)} {ms : List MemberDecl}
    {r : CodeBase × List (Placed MemberDecl)} :
    declareMembers c b seen ms = .ok r ↔
      (∀ m ∈ ms, m.name ≠ "")
        ∧ Fresh (· ∈ seen) (ms.map (·.signature c.decl.name))
        ∧ r = (addMembers c b ms, placedFrom b.nextId ms) := by
  induction ms generalizing b seen r with
  | nil =>
    constructor
    · intro h
      exact ⟨by simp, by simp [Fresh], (Except.ok.inj h).symm⟩
    · rintro ⟨-, -, rfl⟩
      rfl
  | cons m ms ih =>
    have hnext :
        (b.addMember c.id (.ofMember b.nextId c.id c.decl.name m)).nextId
          = b.nextId + 1 := nextId_addMember b _ _
    rw [List.map_cons, fresh_cons, List.forall_mem_cons]
    unfold declareMembers
    -- `signature` stands for what is computed on the spot
    show (if m.name = "" then _ else
      if seen.contains (m.signature c.decl.name) then _ else _) = _ ↔ _
    split
    · rename_i hempty
      simp [hempty]
    · rename_i hnamed
      split
      · rename_i hdup
        rw [List.contains_iff_mem] at hdup
        simp [hdup]
      · rename_i hnew
        rw [List.contains_iff_mem] at hnew
        rw [bind_eq_ok]
        simp only [ih, List.mem_cons, hnext]
        constructor
        · rintro ⟨-, ⟨hne, hfresh, rfl⟩, heq⟩
          obtain rfl := Except.ok.inj heq
          exact ⟨⟨hnamed, hne⟩, ⟨hnew, hfresh⟩, rfl⟩
        · rintro ⟨⟨-, hne⟩, ⟨-, hfresh⟩, rfl⟩
          exact ⟨_, ⟨hne, hfresh, rfl⟩, rfl⟩

/-- Members of all types are declared exactly if each type's are valid. -/
theorem declareAllMembers_eq_ok_iff {b : CodeBase}
    {heads : List (Placed ClassDecl)} {r : CodeBase × List PlacedClass} :
    b.declareAllMembers heads = .ok r ↔
      (∀ c ∈ heads, c.decl.MembersValid)
        ∧ r = (b.addAllMembers heads, placeMembers b.nextId heads) := by
  induction heads generalizing b r with
  | nil =>
    constructor
    · intro h
      exact ⟨by simp, (Except.ok.inj h).symm⟩
    · rintro ⟨-, rfl⟩
      rfl
  | cons c cs ih =>
    have hall : addImplicitConstructor c (addMembers c b c.decl.members)
        = addMembers c b c.decl.allMembers := by
      rw [addImplicitConstructor_eq, ClassDecl.allMembers, addMembers_append]
    unfold declareAllMembers
    rw [bind_eq_ok]
    constructor
    · rintro ⟨r₁, h₁, hrest⟩
      obtain ⟨hne, ⟨hnd, -⟩, rfl⟩ := declareMembers_eq_ok_iff.mp h₁
      obtain ⟨r₂, h₂, heq⟩ := bind_eq_ok.mp hrest
      rw [hall, ih, nextId_addMembers] at h₂
      obtain ⟨hvalid, rfl⟩ := h₂
      obtain rfl := Except.ok.inj heq
      refine ⟨?_, rfl⟩
      exact List.forall_mem_cons.mpr ⟨⟨hne, hnd⟩, hvalid⟩
    · rintro ⟨hvalid, rfl⟩
      obtain ⟨hc, hcs⟩ := List.forall_mem_cons.mp hvalid
      have hfresh : Fresh (· ∈ []) (c.decl.members.map (·.signature c.decl.name)) :=
        ⟨hc.nodup, by simp⟩
      refine ⟨_, declareMembers_eq_ok_iff.mpr ⟨hc.named, hfresh, rfl⟩, ?_⟩
      rw [bind_eq_ok]
      refine ⟨_, ih.mpr ⟨hcs, rfl⟩, ?_⟩
      rw [hall, nextId_addMembers]
      rfl

/-! ### Building as a whole -/

theorem map_decl_placedFrom {α : Type} (n : ElementId) (as : List α) :
    (placedFrom n as).map (·.decl) = as := by
  induction as generalizing n with
  | nil => rfl
  | cons a as ih => rw [placedFrom, List.map_cons, ih]

/-- What holds of declarations holds wherever they are placed. -/
theorem forall_placedFrom {α : Type} {P : α → Prop} {n : ElementId}
    {as : List α} : (∀ p ∈ placedFrom n as, P p.decl) ↔ ∀ a ∈ as, P a := by
  rw [← List.forall_mem_map, map_decl_placedFrom]

theorem nextId_addClasses (b : CodeBase) (cs : List ClassDecl) :
    (b.addClasses cs).nextId = b.nextId + cs.length := by
  induction cs generalizing b with
  | nil => rfl
  | cons c cs ih =>
    rw [addClasses_cons, ih, nextId_addType, List.length_cons]
    exact Nat.add_right_comm _ _ _

theorem nextId_addClasses_empty (cs : List ClassDecl) :
    (CodeBase.empty.addClasses cs).nextId = cs.length := by
  rw [nextId_addClasses]
  exact Nat.zero_add _

/-- The code base that holds what is declared and no dependencies. -/
def declaredBase (cs : List ClassDecl) : CodeBase :=
  (CodeBase.empty.addClasses cs).addAllMembers (placedFrom 0 cs)

/-- The ids of declared types and of their written members. -/
def placement (cs : List ClassDecl) : List PlacedClass :=
  placeMembers cs.length (placedFrom 0 cs)

/-! ### The table of declared elements -/

/-- The members of one type as elements, under consecutive ids. -/
def memberBlock (n : ElementId) (c : Placed ClassDecl) : List Element :=
  (placedFrom n c.decl.allMembers).map fun m =>
    .ofMember m.id c.id c.decl.name m.decl

/-- The members of all types as elements, type by type. -/
def memberTable (n : ElementId) : List (Placed ClassDecl) → List Element
  | [] => []
  | c :: cs => memberBlock n c ++ memberTable (n + c.decl.allMembers.length) cs

/-- All that is declared as elements: the types, and then their members. -/
def declaredTable (cs : List ClassDecl) : List Element :=
  (placedFrom 0 cs).map (fun c => .ofClass c.id c.decl)
    ++ memberTable cs.length (placedFrom 0 cs)

theorem elements_addClasses (b : CodeBase) (cs : List ClassDecl) :
    (b.addClasses cs).elements
      = b.elements ++ (placedFrom b.nextId cs).map fun c =>
        .ofClass c.id c.decl := by
  induction cs generalizing b with
  | nil => simp [addClasses, placedFrom]
  | cons c cs ih =>
    rw [addClasses_cons, ih, elements_addType, nextId_addType, placedFrom,
      List.map_cons, List.append_assoc]
    rfl

theorem elements_addMembers (c : Placed ClassDecl) (b : CodeBase)
    (ms : List MemberDecl) :
    (addMembers c b ms).elements
      = b.elements ++ (placedFrom b.nextId ms).map fun m =>
        .ofMember m.id c.id c.decl.name m.decl := by
  induction ms generalizing b with
  | nil => simp [addMembers, placedFrom]
  | cons m ms ih =>
    rw [addMembers_cons, ih, elements_addMember, nextId_addMember, placedFrom,
      List.map_cons, List.append_assoc]
    rfl

theorem addAllMembers_cons (b : CodeBase) (c : Placed ClassDecl)
    (cs : List (Placed ClassDecl)) :
    b.addAllMembers (c :: cs)
      = (addMembers c b c.decl.allMembers).addAllMembers cs := rfl

theorem elements_addAllMembers (b : CodeBase) (heads : List (Placed ClassDecl)) :
    (b.addAllMembers heads).elements
      = b.elements ++ memberTable b.nextId heads := by
  induction heads generalizing b with
  | nil => simp [addAllMembers, memberTable]
  | cons c cs ih =>
    rw [addAllMembers_cons, ih, elements_addMembers, nextId_addMembers,
      memberTable, List.append_assoc]
    rfl

theorem elements_declaredBase (cs : List ClassDecl) :
    (declaredBase cs).elements = declaredTable cs := by
  rw [declaredBase, elements_addAllMembers, elements_addClasses,
    nextId_addClasses_empty]
  rfl

theorem dependencies_declaredBase (cs : List ClassDecl) :
    (declaredBase cs).dependencies = [] := by
  have hclasses : ∀ b : CodeBase, (b.addClasses cs).dependencies = b.dependencies := by
    intro b
    induction cs generalizing b with
    | nil => rfl
    | cons c cs ih => rw [addClasses_cons, ih, dependencies_addType]
  have hmembers : ∀ c b (ms : List MemberDecl),
      (addMembers c b ms).dependencies = b.dependencies := by
    intro c b ms
    induction ms generalizing b with
    | nil => rfl
    | cons m ms ih => rw [addMembers_cons, ih, dependencies_addMember]
  have hall : ∀ (heads : List (Placed ClassDecl)) (b : CodeBase),
      (b.addAllMembers heads).dependencies = b.dependencies := by
    intro heads
    induction heads with
    | nil => intro b; rfl
    | cons c heads ih => intro b; rw [addAllMembers_cons, ih, hmembers]
  rw [declaredBase, hall, hclasses]
  rfl

/-! ### The declared code base is sound -/

theorem signature_eq_of_rivals {m m' : MemberDecl} (h : m.Rivals m')
    (owner : String) : m.signature owner = m'.signature owner := by
  obtain ⟨hk, hn, hp⟩ := h
  unfold MemberDecl.signature
  rw [MemberDecl.fullName_eq, MemberDecl.fullName_eq, hn,
    MemberKind.fullName_congr hp, hk]

theorem mem_implicitConstructor {c : ClassDecl} {m : MemberDecl}
    (h : m ∈ c.implicitConstructor?.toList) :
    m.kind = .constructor ∧ ∀ m' ∈ c.members, m'.kind ≠ .constructor := by
  unfold ClassDecl.implicitConstructor? at h
  split at h
  · rename_i hcond
    simp only [Option.toList_some, List.mem_singleton] at h
    subst h
    refine ⟨rfl, ?_⟩
    simp only [ClassDecl.declaresConstructor, Bool.and_eq_true, Bool.not_eq_true',
      List.any_eq_false, beq_iff_eq] at hcond
    exact hcond.2
  · cases h

/-- Valid members, with the implicit constructor, answer to different
references. -/
theorem pairwise_allMembers {c : ClassDecl} (h : c.MembersValid) :
    c.allMembers.Pairwise fun m m' => ¬ m.Rivals m' := by
  unfold ClassDecl.allMembers
  rw [List.pairwise_append]
  refine ⟨?_, ?_, ?_⟩
  · -- rivals would have one signature
    have hnd := h.nodup
    rw [List.Nodup, List.pairwise_map] at hnd
    exact hnd.imp fun hne hr => hne (signature_eq_of_rivals hr _)
  · rcases c.implicitConstructor? with - | m <;> simp
  · -- there is an implicit constructor only if none is written
    intro m hm m' hm' hr
    obtain ⟨hk, hother⟩ := mem_implicitConstructor hm'
    exact hother m hm (hr.1.trans hk)

theorem Sound.addClasses {b : CodeBase} {cs : List ClassDecl} (h : b.Sound)
    (hnd : (cs.map (·.name)).Nodup)
    (hnew : ∀ c ∈ cs, b.classId? c.name = none) : (b.addClasses cs).Sound := by
  induction cs generalizing b with
  | nil => exact h
  | cons c cs ih =>
    rw [List.map_cons, List.nodup_cons] at hnd
    rw [addClasses_cons]
    refine ih ?_ hnd.2 ?_
    · refine h.addType rfl rfl rfl ?_ (hnew c List.mem_cons_self)
      exact fun hs => Bool.noConfusion hs
    · intro c' hc'
      have hne : c'.name ≠ (Element.ofClass b.nextId c).fullName := fun heq =>
        hnd.1 (List.mem_map.mpr ⟨c', hc', heq⟩)
      rw [classId?_addType, if_neg hne]
      exact hnew c' (List.mem_cons_of_mem _ hc')

/-- Members of a type that differ from each other and from what the type has
already may be entered. -/
theorem Sound.addMembers {b : CodeBase} {c : Placed ClassDecl}
    {ms : List MemberDecl} (h : b.Sound)
    (hc : .ofClass c.id c.decl ∈ b.elements)
    (hdiff : ms.Pairwise fun m m' => ¬ m.Rivals m')
    (hfresh : ∀ e ∈ b.elements, e.owner = some c.id → ∀ m ∈ ms,
      refersTo (.member m.kind) m.name m.parameters e = false) :
    (addMembers c b ms).Sound := by
  induction ms generalizing b with
  | nil => exact h
  | cons m ms ih =>
    rw [List.pairwise_cons] at hdiff
    rw [addMembers_cons]
    refine ih ?_ ?_ hdiff.2 ?_
    · refine h.addMember hc rfl rfl rfl rfl ?_ ?_ ?_
      · exact MemberDecl.fullName_eq c.decl.name m
      · exact fun hs => Bool.noConfusion hs
      · intro e he howner halike
        have hno := hfresh e he howner m List.mem_cons_self
        exact absurd halike (Bool.not_eq_true _ ▸ hno)
    · rw [elements_addMember]
      exact List.mem_append_left _ hc
    · intro e he howner m' hm'
      rw [elements_addMember, List.mem_append, List.mem_singleton] at he
      rcases he with he | rfl
      · exact hfresh e he howner m' (List.mem_cons_of_mem _ hm')
      · -- the member just entered is no rival of a later one
        rw [← Bool.not_eq_true, refersTo_iff]
        rintro ⟨hk, hn, hp⟩
        refine hdiff.1 m' hm' ⟨ElementKind.member.inj hk, hn, ?_⟩
        rcases hp with hf | hp
        · exact Or.inl ((ElementKind.member.inj hk).trans (ElementKind.member.inj hf))
        · exact Or.inr hp

theorem owner_of_mem_memberBlock {n : ElementId} {c : Placed ClassDecl}
    {e : Element} (h : e ∈ memberBlock n c) : e.owner = some c.id := by
  obtain ⟨m, -, rfl⟩ := List.mem_map.mp h
  rfl

/-- Members of types that have none yet may be entered, type by type. -/
theorem Sound.addAllMembers {b : CodeBase} {heads : List (Placed ClassDecl)}
    (h : b.Sound) (hheads : ∀ c ∈ heads, .ofClass c.id c.decl ∈ b.elements)
    (hids : (heads.map (·.id)).Nodup)
    (hvalid : ∀ c ∈ heads, c.decl.MembersValid)
    (hnone : ∀ e ∈ b.elements, ∀ c ∈ heads, e.owner ≠ some c.id) :
    (b.addAllMembers heads).Sound := by
  induction heads generalizing b with
  | nil => exact h
  | cons c cs ih =>
    rw [List.map_cons, List.nodup_cons] at hids
    obtain ⟨hc, hcs⟩ := List.forall_mem_cons.mp hheads
    obtain ⟨hvc, hvcs⟩ := List.forall_mem_cons.mp hvalid
    rw [addAllMembers_cons]
    refine ih ?_ ?_ hids.2 hvcs ?_
    · refine h.addMembers hc (pairwise_allMembers hvc) ?_
      intro e he howner
      exact absurd howner (hnone e he c List.mem_cons_self)
    · intro c' hc'
      rw [elements_addMembers]
      exact List.mem_append_left _ (hcs c' hc')
    · intro e he c' hc'
      rw [elements_addMembers, List.mem_append] at he
      rcases he with he | he
      · exact hnone e he c' (List.mem_cons_of_mem _ hc')
      · -- what has been entered belongs to another type
        rw [owner_of_mem_memberBlock he]
        exact fun heq => hids.1 (List.mem_map.mpr ⟨c', hc', (Option.some.inj heq).symm⟩)

theorem map_id_placedFrom {α : Type} (n : ElementId) (as : List α) :
    (placedFrom n as).map (·.id) = List.range' n as.length := by
  induction as generalizing n with
  | nil => rfl
  | cons a as ih => rw [placedFrom, List.map_cons, ih, List.length_cons, List.range'_succ]

theorem sound_declaredBase {cs : List ClassDecl}
    (hnd : (cs.map (·.name)).Nodup) (hvalid : ∀ c ∈ cs, c.MembersValid) :
    (declaredBase cs).Sound := by
  have hclasses : (CodeBase.empty.addClasses cs).elements
      = (placedFrom 0 cs).map fun c => .ofClass c.id c.decl :=
    elements_addClasses CodeBase.empty cs
  refine Sound.addAllMembers ?_ ?_ ?_ (forall_placedFrom.mpr hvalid) ?_
  · exact Sound.empty.addClasses hnd fun _ _ => rfl
  · intro c hc
    rw [hclasses]
    exact List.mem_map_of_mem hc
  · rw [map_id_placedFrom]
    exact List.nodup_range'
  · intro e he c _
    rw [hclasses] at he
    obtain ⟨c', -, rfl⟩ := List.mem_map.mp he
    simp [Element.ofClass]

/-! ### Where declarations are placed -/

theorem map_head_placeMembers (n : ElementId) (heads : List (Placed ClassDecl)) :
    (placeMembers n heads).map (·.head) = heads := by
  induction heads generalizing n with
  | nil => rfl
  | cons c cs ih => rw [placeMembers, List.map_cons, ih]

theorem placedFrom_append {α : Type} (n : ElementId) (as as' : List α) :
    placedFrom n (as ++ as')
      = placedFrom n as ++ placedFrom (n + as.length) as' := by
  induction as generalizing n with
  | nil => rfl
  | cons a as ih =>
    rw [List.cons_append, placedFrom, ih, placedFrom, List.length_cons,
      List.cons_append, Nat.add_right_comm]
    rfl

/-- Placed types have their written members, and those are in the table. -/
theorem mem_placeMembers {n : ElementId} {heads : List (Placed ClassDecl)}
    {c : PlacedClass} (h : c ∈ placeMembers n heads) :
    c.members.map (·.decl) = c.head.decl.members ∧ ∀ m ∈ c.members,
      .ofMember m.id c.head.id c.head.decl.name m.decl ∈ memberTable n heads := by
  induction heads generalizing n with
  | nil => cases h
  | cons c₀ cs ih =>
    rw [placeMembers, List.mem_cons] at h
    rcases h with rfl | h
    · -- the implicit constructor comes last, so it moves no written member
      refine ⟨map_decl_placedFrom _ _, ?_⟩
      intro m hm
      rw [memberTable, memberBlock, ClassDecl.allMembers, placedFrom_append]
      refine List.mem_append_left _ (List.mem_map.mpr ⟨m, ?_, rfl⟩)
      exact List.mem_append_left _ hm
    · obtain ⟨hdecls, hmem⟩ := ih h
      refine ⟨hdecls, fun m hm => ?_⟩
      rw [memberTable]
      exact List.mem_append_right _ (hmem m hm)

end CodeBase

namespace Blueprint

open CodeBase

/-- Building succeeds exactly on valid blueprints; it enters what is declared,
and then connects it. -/
theorem build_eq_ok_iff {p : Blueprint} {b : CodeBase} :
    p.build = .ok b ↔ p.Valid ∧
      b = ((placement p.declarations).flatMap (·.references)).foldl connect
        (declaredBase p.declarations) := by
  have hnext := nextId_addClasses_empty p.declarations
  have hdecls : (∀ c ∈ placedFrom 0 p.declarations, c.decl.MembersValid)
      ↔ ∀ c ∈ p.declarations, c.MembersValid := forall_placedFrom
  unfold Blueprint.build
  rw [bind_eq_ok]
  constructor
  · rintro ⟨cs, hcs, hrest⟩
    obtain ⟨r₁, h₁, hrest⟩ := bind_eq_ok.mp hrest
    obtain ⟨hne, ⟨hnd, -⟩, rfl⟩ := declareClasses_eq_ok_iff.mp h₁
    obtain ⟨r₂, h₂, heq⟩ := bind_eq_ok.mp hrest
    obtain ⟨hvalid, rfl⟩ := declareAllMembers_eq_ok_iff.mp h₂
    obtain rfl := Except.ok.inj heq
    -- only now is it known that names are told apart
    have hnames := names_of_attachAll hcs
    rw [hnames] at hnd
    obtain ⟨howners, rfl⟩ := (attachAll_eq_ok_iff hnd).mp hcs
    refine ⟨⟨howners, ?_, hnd, hdecls.mp hvalid⟩, ?_⟩
    · intro c hc
      exact hne (c.withLate p.lateMembers) (List.mem_map_of_mem hc)
    · show _ = ((placeMembers _ _).flatMap _).foldl _ _
      rw [← hnext]
      rfl
  · rintro ⟨hp, rfl⟩
    have hnd := hp.nodup
    refine ⟨p.declarations, (attachAll_eq_ok_iff hnd).mpr ⟨hp.owners, rfl⟩, ?_⟩
    rw [bind_eq_ok]
    refine ⟨_, declareClasses_eq_ok_iff.mpr ⟨?_, ⟨?_, ?_⟩, rfl⟩, ?_⟩
    · rw [Blueprint.declarations, List.forall_mem_map]
      exact hp.named
    · rw [Blueprint.names_declarations]
      exact hnd
    · -- nothing is declared at the start
      intro name _ hsome
      cases hsome
    · rw [bind_eq_ok]
      refine ⟨_, declareAllMembers_eq_ok_iff.mpr ⟨hdecls.mpr hp.members, rfl⟩, ?_⟩
      rw [hnext]
      rfl

end Blueprint

end Conformance
