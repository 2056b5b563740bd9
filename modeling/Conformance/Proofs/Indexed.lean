/-
Conformance/Proofs/Indexed.lean

The indexes of a code base agree with its tables.

A code base keeps two tables, elements and dependencies, and beside them what
rules ask for most often: declared types, types by name, and under each type
its members and the dependencies that start and end there.  The indexes are
kept up entry by entry.  `Indexed` says what they hold in terms of the tables
alone: each list of ids is a filter of a table.  It holds of the empty code
base and is kept by the three operations, `addType`, `addMember` and `addEdge`,
under the conditions that each of them needs: a new element has the next id, a
new type has a new name, and what a member or a dependency is filed under is
there.

From `Indexed` every query is a scan (`classes_eq`, `membersOf_eq`,
`outgoing_eq`, ...), so that later proofs speak of the tables only.
-/
import Conformance.CodeBase

namespace Conformance

/-! ### What elements are filed under -/

/-- A type that is declared. -/
def Element.isDeclaredType (e : Element) : Bool :=
  e.kind == .type && !e.isStub

/-- A declared member of type `c`. -/
def Element.isMemberOf (c : ElementId) (e : Element) : Bool :=
  e.owner == some c && !e.isStub

/-- A member of type `c` that is only referred to. -/
def Element.isStubMemberOf (c : ElementId) (e : Element) : Bool :=
  e.owner == some c && e.isStub

namespace CodeBase

variable {b : CodeBase} {e : Element} {c : ElementId}

/-- What a slot holds for type `c`, in terms of the tables. -/
structure Files (es : List Element) (ds : List Dependency) (c : ElementId)
    (s : Slot) : Prop where
  members : s.members = (es.filter (·.isMemberOf c)).map (·.id)
  stubMembers : s.stubMembers = (es.filter (·.isStubMemberOf c)).map (·.id)
  outgoing : s.outgoing = (ds.filter (·.originClass == c)).map (·.id)
  incoming : s.incoming = (ds.filter (·.targetClass == c)).map (·.id)

/-- The type with a name, in terms of the table of elements. -/
def IsType (b : CodeBase) (name : String) (i : ElementId) : Prop :=
  ∃ e ∈ b.elements, e.id = i ∧ e.kind = .type ∧ e.fullName = name

/-- All indexes agree with the tables, and what is filed under an element is
filed under one that exists. -/
structure Indexed (b : CodeBase) : Prop where
  element_id : ∀ {i e}, b.element? i = some e → e.id = i
  edge_id : ∀ {i d}, b.dependency? i = some d → d.id = i
  owner_lt : ∀ e ∈ b.elements, ∀ c, e.owner = some c → c < b.nextId
  ends_lt : ∀ d ∈ b.dependencies,
    d.originClass < b.nextId ∧ d.targetClass < b.nextId
  classIds_eq : b.classIds = (b.elements.filter Element.isDeclaredType).map (·.id)
  classId?_iff : ∀ {name i}, b.classId? name = some i ↔ b.IsType name i
  files : ∀ {c s}, b.slots[c]? = some s → Files b.elements b.dependencies c s

/-! ### What the operations do to the tables -/

theorem element?_eq (b : CodeBase) (i : ElementId) :
    b.element? i = b.elements[i]? := by
  simp [element?, elements]

theorem dependency?_eq (b : CodeBase) (i : EdgeId) :
    b.dependency? i = b.dependencies[i]? := by
  simp [dependency?, dependencies]

theorem length_elements (b : CodeBase) : b.elements.length = b.nextId := by
  simp [elements, nextId]

/-- A change to a slot that keeps its element keeps the table. -/
theorem map_element_modify (slots : Array Slot) (i : ElementId)
    {f : Slot → Slot} (hf : ∀ s, (f s).element = s.element) :
    (slots.modify i f).toList.map (·.element)
      = slots.toList.map (·.element) := by
  apply List.ext_getElem?
  intro j
  simp only [List.getElem?_map, Array.getElem?_toList, Array.getElem?_modify]
  split
  · rcases slots[j]? with - | s <;> simp [hf]
  · rfl

@[simp] theorem element_enter (s : Slot) : (Slot.enter e s).element = s.element := by
  unfold Slot.enter
  split <;> rfl

@[simp] theorem elements_addType (b : CodeBase) (e : Element) :
    (b.addType e).elements = b.elements ++ [e] := by
  simp [elements, addType]

@[simp] theorem elements_addMember (b : CodeBase) (c : ElementId) (e : Element) :
    (b.addMember c e).elements = b.elements ++ [e] := by
  have h : (b.slots.modify c (Slot.enter e)).toList.map (·.element) = b.elements :=
    map_element_modify b.slots c element_enter
  simp only [elements, addMember, Array.toList_push, List.map_append, h]
  rfl

@[simp] theorem elements_addEdge (b : CodeBase) (kind : DependencyKind)
    (o oc t tc : ElementId) (line : Option Nat) :
    (b.addEdge kind o oc t tc line).elements = b.elements := by
  simp only [elements, addEdge]
  rw [map_element_modify, map_element_modify]
  · intro s; rfl
  · intro s; rfl

@[simp] theorem dependencies_addType (b : CodeBase) (e : Element) :
    (b.addType e).dependencies = b.dependencies := rfl

@[simp] theorem dependencies_addMember (b : CodeBase) (c : ElementId)
    (e : Element) : (b.addMember c e).dependencies = b.dependencies := rfl

@[simp] theorem dependencies_addEdge (b : CodeBase) (kind : DependencyKind)
    (o oc t tc : ElementId) (line : Option Nat) :
    (b.addEdge kind o oc t tc line).dependencies
      = b.dependencies ++ [⟨b.edges.size, kind, o, oc, t, tc, line⟩] := by
  simp [dependencies, addEdge]

theorem nextId_addType (b : CodeBase) (e : Element) :
    (b.addType e).nextId = b.nextId + 1 := by
  simp [nextId, addType]

theorem nextId_addMember (b : CodeBase) (c : ElementId) (e : Element) :
    (b.addMember c e).nextId = b.nextId + 1 := by
  simp [nextId, addMember]

theorem nextId_addEdge (b : CodeBase) (kind : DependencyKind)
    (o oc t tc : ElementId) (line : Option Nat) :
    (b.addEdge kind o oc t tc line).nextId = b.nextId := by
  simp [nextId, addEdge]

/-- A new type is found under its name, and all others as before. -/
theorem classId?_addType (b : CodeBase) (e : Element) (name : String) :
    (b.addType e).classId? name
      = if name = e.fullName then some e.id else b.classId? name := by
  simp only [classId?, addType, List.lookup_cons]
  by_cases h : name = e.fullName
  · simp [h]
  · simp [h, beq_eq_false_iff_ne.mpr h]

/-! ### The empty code base -/

theorem Indexed.empty : Indexed CodeBase.empty where
  element_id := by simp [CodeBase.empty, element?]
  edge_id := by simp [CodeBase.empty, dependency?]
  owner_lt := by simp [CodeBase.empty, elements]
  ends_lt := by simp [CodeBase.empty, dependencies]
  classIds_eq := by simp [CodeBase.empty, elements]
  classId?_iff := by simp [CodeBase.empty, classId?, IsType, elements]
  files := by simp [CodeBase.empty]

/-! ### Adding an element -/

theorem Indexed.id_lt (h : b.Indexed) (he : e ∈ b.elements) : e.id < b.nextId := by
  obtain ⟨i, hi⟩ := List.mem_iff_getElem?.mp he
  rw [h.element_id ((element?_eq b i).trans hi), ← length_elements]
  exact (List.getElem?_eq_some_iff.mp hi).1

/-- An element is found under its own id. -/
theorem Indexed.element?_of_mem (h : b.Indexed) (he : e ∈ b.elements) :
    b.element? e.id = some e := by
  obtain ⟨i, hi⟩ := List.mem_iff_getElem?.mp he
  rw [← element?_eq] at hi
  rw [h.element_id hi, hi]

theorem mem_of_element? {i : ElementId} (h : b.element? i = some e) :
    e ∈ b.elements := by
  rw [element?_eq] at h
  exact List.mem_of_getElem? h

/-- A dependency is found under its own id. -/
theorem Indexed.dependency?_of_mem (h : b.Indexed) {d : Dependency}
    (hd : d ∈ b.dependencies) : b.dependency? d.id = some d := by
  obtain ⟨i, hi⟩ := List.mem_iff_getElem?.mp hd
  rw [← dependency?_eq] at hi
  rw [h.edge_id hi, hi]

theorem mem_of_dependency? {i : EdgeId} {d : Dependency}
    (h : b.dependency? i = some d) : d ∈ b.dependencies := by
  rw [dependency?_eq] at h
  exact List.mem_of_getElem? h

theorem Indexed.owner_ne (h : b.Indexed) (hc : b.nextId ≤ c)
    (he : e ∈ b.elements) : e.owner ≠ some c :=
  fun heq => Nat.not_lt.mpr hc (h.owner_lt e he c heq)

theorem Indexed.ends_ne (h : b.Indexed) (hc : b.nextId ≤ c) {d : Dependency}
    (hd : d ∈ b.dependencies) : d.originClass ≠ c ∧ d.targetClass ≠ c :=
  ⟨fun heq => Nat.not_lt.mpr hc (heq ▸ (h.ends_lt d hd).1),
    fun heq => Nat.not_lt.mpr hc (heq ▸ (h.ends_lt d hd).2)⟩

/-- Nothing is filed under the next id yet. -/
theorem Indexed.files_nextId (h : b.Indexed) (e : Element) :
    Files b.elements b.dependencies b.nextId { element := e } := by
  have howner := fun e he => h.owner_ne (e := e) Nat.le.refl he
  have hends := fun d hd => h.ends_ne (d := d) Nat.le.refl hd
  constructor
  · simp +contextual [Element.isMemberOf, howner]
  · simp +contextual [Element.isStubMemberOf, howner]
  · simpa using fun d hd => (hends d hd).1
  · simpa using fun d hd => (hends d hd).2

/-- An element is filed under its owner and under nothing else. -/
theorem Files.append_of_ne {es : List Element} {ds : List Dependency}
    {s : Slot} (h : Files es ds c s) (hc : e.owner ≠ some c) :
    Files (es ++ [e]) ds c s := by
  constructor
  · simp [h.members, Element.isMemberOf, hc]
  · simp [h.stubMembers, Element.isStubMemberOf, hc]
  · exact h.outgoing
  · exact h.incoming

theorem Files.enter {es : List Element} {ds : List Dependency} {s : Slot}
    (h : Files es ds c s) (hc : e.owner = some c) :
    Files (es ++ [e]) ds c (Slot.enter e s) := by
  rcases hs : e.isStub with - | -
  · constructor <;>
      simp [Slot.enter, hs, Element.isMemberOf, Element.isStubMemberOf, hc,
        h.members, h.stubMembers, h.outgoing, h.incoming]
  · constructor <;>
      simp [Slot.enter, hs, Element.isMemberOf, Element.isStubMemberOf, hc,
        h.members, h.stubMembers, h.outgoing, h.incoming]

/-- A new element at the end keeps ids equal to places. -/
theorem Indexed.element_id_append (h : b.Indexed) {b' : CodeBase}
    (hes : b'.elements = b.elements ++ [e]) (hid : e.id = b.nextId)
    {i : ElementId} {e' : Element} (h' : b'.element? i = some e') :
    e'.id = i := by
  rw [element?_eq, hes, List.getElem?_append] at h'
  split at h'
  · exact h.element_id ((element?_eq b i).trans h')
  · rename_i hlt
    rw [List.getElem?_singleton] at h'
    split at h'
    · rename_i hzero
      obtain rfl := Option.some.inj h'
      rw [length_elements] at hlt hzero
      rw [hid]
      exact Nat.le_antisymm (Nat.not_lt.mp hlt) (Nat.sub_eq_zero_iff_le.mp hzero)
    · cases h'

/-- An id that existed still does when there are more elements. -/
theorem Indexed.owner_lt_append (h : b.Indexed) {b' : CodeBase}
    (hes : b'.elements = b.elements ++ [e]) (hnext : b.nextId ≤ b'.nextId)
    (howner : ∀ c, e.owner = some c → c < b'.nextId) :
    ∀ e' ∈ b'.elements, ∀ c, e'.owner = some c → c < b'.nextId := by
  intro e' he' c hc
  rw [hes, List.mem_append, List.mem_singleton] at he'
  rcases he' with he' | rfl
  · exact Nat.lt_of_lt_of_le (h.owner_lt e' he' c hc) hnext
  · exact howner c hc

theorem Indexed.ends_lt_of_le (h : b.Indexed) {n : Nat} (hnext : b.nextId ≤ n) :
    ∀ d ∈ b.dependencies, d.originClass < n ∧ d.targetClass < n := by
  intro d hd
  obtain ⟨horigin, htarget⟩ := h.ends_lt d hd
  exact ⟨Nat.lt_of_lt_of_le horigin hnext, Nat.lt_of_lt_of_le htarget hnext⟩

theorem isType_append {b' : CodeBase} (hes : b'.elements = b.elements ++ [e])
    {name : String} {i : ElementId} :
    b'.IsType name i
      ↔ b.IsType name i ∨ e.id = i ∧ e.kind = .type ∧ e.fullName = name := by
  unfold IsType
  rw [hes]
  simp only [List.mem_append, List.mem_singleton, or_and_right, exists_or,
    exists_eq_left]

/-- A new type that has the next id and a new name is filed properly. -/
theorem Indexed.addType (h : b.Indexed) (hid : e.id = b.nextId)
    (hkind : e.kind = .type) (howner : e.owner = none)
    (hname : b.classId? e.fullName = none) : (b.addType e).Indexed where
  element_id := h.element_id_append (elements_addType b e) hid
  edge_id := h.edge_id
  owner_lt := by
    refine h.owner_lt_append (elements_addType b e) ?_ ?_
    · rw [nextId_addType]
      exact Nat.le_succ _
    · simp [howner]
  ends_lt := by
    rw [nextId_addType]
    exact h.ends_lt_of_le (Nat.le_succ _)
  classIds_eq := by
    rcases hs : e.isStub with - | - <;>
      simp [CodeBase.addType, hs, h.classIds_eq, Element.isDeclaredType, hkind,
        elements]
  classId?_iff := by
    intro name i
    rw [classId?_addType, isType_append (elements_addType b e)]
    split
    · rename_i hn
      subst hn
      constructor
      · intro hi
        exact Or.inr ⟨Option.some.inj hi, hkind, rfl⟩
      · rintro (hold | ⟨rfl, -, -⟩)
        · -- an older type of this name would have been found
          rw [h.classId?_iff.mpr hold] at hname
          cases hname
        · rfl
    · rename_i hn
      rw [h.classId?_iff]
      constructor
      · exact Or.inl
      · rintro (hold | ⟨-, -, hn'⟩)
        · exact hold
        · exact absurd hn'.symm hn
  files := by
    intro c s hs
    rw [elements_addType, dependencies_addType]
    simp only [CodeBase.addType, Array.getElem?_push] at hs
    split at hs
    · -- the slot of the new type itself, with nothing filed yet
      rename_i hc
      obtain rfl := Option.some.inj hs
      subst hc
      exact (h.files_nextId e).append_of_ne (by simp [howner])
    · exact (h.files hs).append_of_ne (by simp [howner])

/-- A new member that has the next id is filed properly under an owner that
exists. -/
theorem Indexed.addMember (h : b.Indexed) (hid : e.id = b.nextId)
    (hkind : e.kind ≠ .type) (howner : e.owner = some c)
    (hc : c < b.nextId) : (b.addMember c e).Indexed where
  element_id := h.element_id_append (elements_addMember b c e) hid
  edge_id := h.edge_id
  owner_lt := by
    refine h.owner_lt_append (elements_addMember b c e) ?_ ?_
    · rw [nextId_addMember]
      exact Nat.le_succ _
    · intro c' hc'
      rw [howner] at hc'
      obtain rfl := Option.some.inj hc'
      rw [nextId_addMember]
      exact Nat.lt_succ_of_lt hc
  ends_lt := by
    rw [nextId_addMember]
    exact h.ends_lt_of_le (Nat.le_succ _)
  classIds_eq := by
    have hnot : e.isDeclaredType = false := by simp [Element.isDeclaredType, hkind]
    rw [elements_addMember, List.filter_append, List.filter_cons_of_neg (by simp [hnot]),
      List.filter_nil, List.append_nil]
    exact h.classIds_eq
  classId?_iff := by
    intro name i
    refine h.classId?_iff.trans ?_
    simp [isType_append (elements_addMember b c e), hkind]
  files := by
    intro c' s hs
    rw [elements_addMember, dependencies_addMember]
    simp only [CodeBase.addMember, Array.getElem?_push, Array.size_modify,
      Array.getElem?_modify] at hs
    split at hs
    · -- the slot of the member itself: nothing belongs to a member
      rename_i hc'
      obtain rfl := Option.some.inj hs
      subst hc'
      refine (h.files_nextId e).append_of_ne ?_
      rw [howner]
      exact fun heq => Nat.ne_of_lt hc (Option.some.inj heq)
    · split at hs
      · -- the owner's slot
        rename_i heq
        subst heq
        obtain ⟨s₀, hs₀, rfl⟩ := Option.map_eq_some_iff.mp hs
        exact (h.files hs₀).enter howner
      · rename_i hne
        refine (h.files hs).append_of_ne ?_
        rw [howner]
        exact fun heq => hne (Option.some.inj heq)

/-! ### Adding a dependency -/

/-- A new dependency is entered at both its ends, which may be one type. -/
theorem slots_addEdge (b : CodeBase) (kind : DependencyKind)
    (o oc t tc : ElementId) (line : Option Nat) (i : ElementId) :
    (b.addEdge kind o oc t tc line).slots[i]?
      = b.slots[i]?.map fun s =>
        { s with
          outgoing := s.outgoing ++ (if oc = i then [b.edges.size] else [])
          incoming := s.incoming ++ (if tc = i then [b.edges.size] else []) } := by
  simp only [addEdge, Array.getElem?_modify]
  rcases b.slots[i]? with - | s
  · simp
  · by_cases ho : oc = i <;> by_cases ht : tc = i <;> simp [ho, ht]

theorem Files.append_edge {es : List Element} {ds : List Dependency}
    {s : Slot} (h : Files es ds c s) (d : Dependency) :
    Files es (ds ++ [d]) c
      { s with
        outgoing := s.outgoing ++ (if d.originClass = c then [d.id] else [])
        incoming := s.incoming ++ (if d.targetClass = c then [d.id] else []) } := by
  constructor
  · exact h.members
  · exact h.stubMembers
  · by_cases hd : d.originClass = c <;> simp [h.outgoing, hd]
  · by_cases hd : d.targetClass = c <;> simp [h.incoming, hd]

/-- A new dependency between types that exist is filed properly. -/
theorem Indexed.addEdge (h : b.Indexed) {kind : DependencyKind}
    {o oc t tc : ElementId} {line : Option Nat} (hoc : oc < b.nextId)
    (htc : tc < b.nextId) : (b.addEdge kind o oc t tc line).Indexed where
  element_id := by
    intro i e he
    rw [element?_eq, elements_addEdge, ← element?_eq] at he
    exact h.element_id he
  edge_id := by
    intro i d hd
    simp only [dependency?, CodeBase.addEdge, Array.getElem?_push] at hd
    split at hd
    · rename_i hi
      obtain rfl := Option.some.inj hd
      exact hi.symm
    · exact h.edge_id hd
  owner_lt := by
    rw [elements_addEdge, nextId_addEdge]
    exact h.owner_lt
  ends_lt := by
    intro d hd
    rw [nextId_addEdge]
    rw [dependencies_addEdge, List.mem_append, List.mem_singleton] at hd
    rcases hd with hd | rfl
    · exact h.ends_lt d hd
    · exact ⟨hoc, htc⟩
  classIds_eq := by
    rw [elements_addEdge]
    exact h.classIds_eq
  classId?_iff := by
    intro name i
    refine h.classId?_iff.trans ?_
    rw [IsType, IsType, elements_addEdge]
  files := by
    intro c s hs
    rw [elements_addEdge, dependencies_addEdge]
    rw [slots_addEdge] at hs
    obtain ⟨s₀, hs₀, rfl⟩ := Option.map_eq_some_iff.mp hs
    exact (h.files hs₀).append_edge ⟨b.edges.size, kind, o, oc, t, tc, line⟩

/-! ### Queries are scans -/

/-- Looking up the ids of some entries gives the entries back. -/
theorem filterMap_map_id {α : Type} {id : α → Nat} {find? : Nat → Option α}
    {as : List α} (h : ∀ a ∈ as, find? (id a) = some a) :
    (as.map id).filterMap find? = as := by
  induction as with
  | nil => rfl
  | cons a as ih =>
    rw [List.map_cons, List.filterMap_cons_some (h a List.mem_cons_self),
      ih fun a ha => h a (List.mem_cons_of_mem _ ha)]

theorem Indexed.filterMap_element? (h : b.Indexed) (p : Element → Bool) :
    ((b.elements.filter p).map (·.id)).filterMap b.element?
      = b.elements.filter p := by
  refine filterMap_map_id fun e he => ?_
  exact h.element?_of_mem (List.mem_filter.mp he).1

theorem Indexed.filterMap_dependency? (h : b.Indexed) (p : Dependency → Bool) :
    ((b.dependencies.filter p).map (·.id)).filterMap b.dependency?
      = b.dependencies.filter p := by
  refine filterMap_map_id fun d hd => ?_
  exact h.dependency?_of_mem (List.mem_filter.mp hd).1

theorem Indexed.classes_eq (h : b.Indexed) :
    b.classes = b.elements.filter Element.isDeclaredType := by
  rw [classes, h.classIds_eq, h.filterMap_element?]

theorem nextId_le_of_slots {c : ElementId} (hc : b.slots[c]? = none) :
    b.nextId ≤ c := by
  simpa [nextId] using hc

theorem Indexed.membersOf_eq (h : b.Indexed) (c : ElementId) :
    b.membersOf c = b.elements.filter (·.isMemberOf c) := by
  unfold membersOf
  split
  · rename_i s hs
    rw [(h.files hs).members, h.filterMap_element?]
  · rename_i hs
    have howner := fun e he => h.owner_ne (e := e) (nextId_le_of_slots hs) he
    simp +contextual [Element.isMemberOf, howner]

theorem Indexed.stubMembersOf_eq (h : b.Indexed) (c : ElementId) :
    b.stubMembersOf c = b.elements.filter (·.isStubMemberOf c) := by
  unfold stubMembersOf
  split
  · rename_i s hs
    rw [(h.files hs).stubMembers, h.filterMap_element?]
  · rename_i hs
    have howner := fun e he => h.owner_ne (e := e) (nextId_le_of_slots hs) he
    simp +contextual [Element.isStubMemberOf, howner]

theorem Indexed.outgoing_eq (h : b.Indexed) (c : ElementId) :
    b.outgoing c = b.dependencies.filter (·.originClass == c) := by
  unfold outgoing
  split
  · rename_i s hs
    rw [(h.files hs).outgoing, h.filterMap_dependency?]
  · rename_i hs
    have hends := fun d hd => h.ends_ne (d := d) (nextId_le_of_slots hs) hd
    symm
    simpa using fun d hd => (hends d hd).1

theorem Indexed.incoming_eq (h : b.Indexed) (c : ElementId) :
    b.incoming c = b.dependencies.filter (·.targetClass == c) := by
  unfold incoming
  split
  · rename_i s hs
    rw [(h.files hs).incoming, h.filterMap_dependency?]
  · rename_i hs
    have hends := fun d hd => h.ends_ne (d := d) (nextId_le_of_slots hs) hd
    symm
    simpa using fun d hd => (hends d hd).2

/-! ### Members by reference -/

theorem refersTo_iff {kind : ElementKind} {name : String}
    {parameters : List String} :
    refersTo kind name parameters e = true ↔ e.kind = kind ∧ e.name = name ∧
      (kind = .member .field ∨ e.parameters = parameters) := by
  simp [refersTo, and_assoc]

/-- A member that is found belongs to the type and is the one meant. -/
theorem Indexed.member?_eq_some (h : b.Indexed) {kind : ElementKind}
    {name : String} {parameters : List String}
    (hm : b.member? c kind name parameters = some e) :
    e ∈ b.elements ∧ e.owner = some c
      ∧ refersTo kind name parameters e = true := by
  have href := List.find?_some hm
  have hmem := List.mem_of_find?_eq_some hm
  rw [h.membersOf_eq, h.stubMembersOf_eq, List.mem_append, List.mem_filter,
    List.mem_filter] at hmem
  rcases hmem with ⟨he, hown⟩ | ⟨he, hown⟩
  · simp only [Element.isMemberOf, Bool.and_eq_true, beq_iff_eq] at hown
    exact ⟨he, hown.1, href⟩
  · simp only [Element.isStubMemberOf, Bool.and_eq_true, beq_iff_eq] at hown
    exact ⟨he, hown.1, href⟩

/-- If none is found, none of the type's members is meant. -/
theorem Indexed.member?_eq_none (h : b.Indexed) {kind : ElementKind}
    {name : String} {parameters : List String}
    (hm : b.member? c kind name parameters = none) (he : e ∈ b.elements)
    (howner : e.owner = some c) : refersTo kind name parameters e = false := by
  rw [member?, List.find?_eq_none] at hm
  have hmem : e ∈ b.membersOf c ++ b.stubMembersOf c := by
    rw [h.membersOf_eq, h.stubMembersOf_eq, List.mem_append, List.mem_filter,
      List.mem_filter]
    rcases hs : e.isStub with - | -
    · exact Or.inl ⟨he, by simp [Element.isMemberOf, howner, hs]⟩
    · exact Or.inr ⟨he, by simp [Element.isStubMemberOf, howner, hs]⟩
  simpa using hm e hmem

end CodeBase

end Conformance
