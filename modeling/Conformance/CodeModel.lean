/-
Conformance/CodeModel.lean

What a rule may ask about code.  Rules never see how a code base is stored:
they are given a `CodeModel`, which answers five basic questions (elements by
id, types by name, the declared types, their members, all dependencies) and
five questions on dependencies.

A model that has no faster way answers the latter five by a scan of all its
dependencies; those are the defaults.  Everything else that predicates and
conditions ask is put together from these ten.

A model need not be consistent: it may list a dependency whose elements it
does not know.  Questions that run into that answer with an `Inconsistency`.
-/
import Conformance.Dependency

namespace Conformance

/-- How a model contradicts itself. -/
inductive Inconsistency where
  /-- A dependency or a lookup names an element that the model lacks. -/
  | unknownElement (id : ElementId)
  /-- A member's type is not in the model. -/
  | missingOwner (member : String)
  /-- Something that holds no code accesses a member. -/
  | notACodeUnit (edge : EdgeId) (origin : String)
  deriving DecidableEq, Repr

/-- The contradiction in words. -/
def Inconsistency.message : Inconsistency → String
  | unknownElement id =>
    "element #" ++ toString id ++ " is not part of the code model"
  | missingOwner member => member ++ " has no owning class"
  | notACodeUnit edge origin =>
    "call edge #" ++ toString edge ++ " originates from " ++ origin
      ++ ", which is not a method or constructor"

/-- The questions a rule may ask about code. -/
structure CodeModel where
  /-- The element with an id. -/
  element? : ElementId → Option Element
  /-- The type with a full name. -/
  classNamed? : String → Option Element
  /-- The declared types. -/
  classes : List Element
  /-- The declared members of a type. -/
  membersOf : ElementId → List Element
  /-- All dependencies. -/
  dependencies : List Dependency
  /-- The dependency with an id. -/
  dependency? : EdgeId → Option Dependency := fun id =>
    dependencies.find? fun d => d.id == id
  /-- The uses that leave a type. -/
  dependenciesFrom : ElementId → List Dependency := fun c =>
    dependencies.filter (Dependency.leaves c)
  /-- The uses that come to a type from outside. -/
  dependenciesInto : ElementId → List Dependency := fun c =>
    dependencies.filter (Dependency.enters c)
  /-- The accesses that code of a type makes. -/
  callsFrom : ElementId → List Dependency := fun c =>
    dependencies.filter (Dependency.callsFrom c)
  /-- The accesses to members of a type. -/
  callsTo : ElementId → List Dependency := fun c =>
    dependencies.filter (Dependency.callsTo c)

namespace CodeModel

variable (m : CodeModel)

/-! ### Selections -/

/-- The declared methods, type by type. -/
def methods : List Element :=
  (m.classes.flatMap fun c => m.membersOf c.id).filter fun e =>
    e.kind == .member .method && !e.isStub

/-- The declared types with an annotation of a given type. -/
def classesAnnotatedWith (marker : String) : List Element :=
  m.classes.filter (·.isAnnotatedWith marker)

/-- The declared methods with an annotation of one of the given types. -/
def methodsAnnotatedWithAny (markers : List String) : List Element :=
  m.methods.filter fun e => markers.any e.isAnnotatedWith

/-- The constructor of a type that takes no arguments. -/
def zeroArgConstructor? (c : ElementId) : Option Element :=
  (m.membersOf c).find? fun e =>
    e.kind == .member .constructor && e.parameters.isEmpty && !e.isStub

/-! ### Lookups that must succeed -/

/-- The element with an id, which the model is expected to know. -/
def resolve (id : ElementId) : Except Inconsistency Element :=
  match m.element? id with
  | some e => .ok e
  | none => .error (.unknownElement id)

/-- The type a member belongs to, which the model is expected to know. -/
def ownerOf (member : Element) : Except Inconsistency Element :=
  match member.owner.bind m.element? with
  | some e => .ok e
  | none => .error (.missingOwner member.fullName)

section Lookups

variable {m}

theorem resolve_of_some {i : ElementId} {e : Element} (h : m.element? i = some e) :
    m.resolve i = .ok e := by
  rw [resolve, h]

theorem resolve_of_none {i : ElementId} (h : m.element? i = none) :
    m.resolve i = .error (.unknownElement i) := by
  rw [resolve, h]

theorem ownerOf_of_some {e o : Element} (h : e.owner.bind m.element? = some o) :
    m.ownerOf e = .ok o := by
  rw [ownerOf, h]

theorem ownerOf_of_none {e : Element} (h : e.owner.bind m.element? = none) :
    m.ownerOf e = .error (.missingOwner e.fullName) := by
  rw [ownerOf, h]

end Lookups

/-! ### Annotations of annotations

An annotation type may itself be annotated, and so on.  An element is
*meta-annotated* with a marker if a chain of at most `maxMetaDepth` such steps
leads from one of its annotations to the marker.

The search for the marker works off a queue of names, each with the number of
steps that led to it.  A name is followed once: the names on its type's
annotations then join the queue at its end.  A model may know a type for every
name there is, so following no name twice does not bound the search.  What
bounds it is the number of steps: there are only so many names that can be met
in the steps left to the names in the queue (`workload`), and each turn leaves
fewer. -/

/-- The longest chain of annotations on annotations that is followed. -/
def maxMetaDepth : Nat := 16

/-- The types of the annotations on the type with a name. -/
def markersOfType (name : String) : List String :=
  match m.classNamed? name with
  | some e => e.markers
  | none => []

/-- Names that all lie equally many steps away. -/
def atDepth (depth : Nat) (names : List String) : List (String × Nat) :=
  names.map fun name => (name, depth)

/-- How many names are met from `names` on in at most `steps` steps, each as
often as it is met. -/
def namesWithin : (steps : Nat) → (names : List String) → Nat
  | 0, names => names.length
  | steps + 1, names =>
    names.length + namesWithin steps (names.flatMap m.markersOfType)

/-- How many names may be met before a queue is worked off. -/
def workload : List (String × Nat) → Nat
  | [] => 0
  | (name, depth) :: queue =>
    m.namesWithin (maxMetaDepth - depth) [name] + workload queue

section Workload

variable {m} {depth : Nat} {name : String} {queue : List (String × Nat)}

theorem namesWithin_append (steps : Nat) (names names' : List String) :
    m.namesWithin steps (names ++ names')
      = m.namesWithin steps names + m.namesWithin steps names' := by
  induction steps generalizing names names' with
  | zero => exact List.length_append
  | succ steps ih =>
    simp only [namesWithin, List.length_append, List.flatMap_append, ih]
    omega

theorem namesWithin_pos (steps : Nat) (name : String) :
    0 < m.namesWithin steps [name] := by
  cases steps with
  | zero => exact Nat.one_pos
  | succ steps => exact Nat.lt_of_lt_of_le Nat.one_pos (Nat.le_add_right 1 _)

theorem workload_append (queue queue' : List (String × Nat)) :
    m.workload (queue ++ queue') = m.workload queue + m.workload queue' := by
  induction queue with
  | nil => exact (Nat.zero_add _).symm
  | cons entry queue ih =>
    simp only [List.cons_append, workload, ih]
    omega

theorem workload_atDepth (depth : Nat) (names : List String) :
    m.workload (atDepth depth names) = m.namesWithin (maxMetaDepth - depth) names := by
  induction names with
  | nil =>
    -- nothing is met from nowhere, however many steps are left
    have hnone := namesWithin_append (m := m) (maxMetaDepth - depth) [] []
    simp only [List.append_nil] at hnone
    simp only [atDepth, List.map_nil, workload]
    omega
  | cons name names ih =>
    rw [← List.singleton_append, namesWithin_append, ← ih]
    rfl

/-- To pass a name over leaves less to do. -/
theorem workload_lt_cons : m.workload queue < m.workload ((name, depth) :: queue) :=
  Nat.lt_add_of_pos_left (namesWithin_pos _ name)

/-- To follow a name leaves less to do, as long as steps are left. -/
theorem workload_follow_lt (hdepth : depth < maxMetaDepth) :
    m.workload (queue ++ atDepth (depth + 1) (m.markersOfType name))
      < m.workload ((name, depth) :: queue) := by
  obtain ⟨steps, hsteps⟩ : ∃ steps, maxMetaDepth - depth = steps + 1 :=
    ⟨maxMetaDepth - (depth + 1), by omega⟩
  have hleft : maxMetaDepth - (depth + 1) = steps := by omega
  rw [workload_append, workload_atDepth, workload, hsteps, hleft, namesWithin]
  simp only [List.flatMap_cons, List.flatMap_nil, List.append_nil,
    List.length_singleton]
  omega

end Workload

/-- Whether `marker` turns up when the queue is worked off, the first name
first.  A name that was followed before or has no steps left is passed over. -/
def search (marker : String) (queue : List (String × Nat))
    (visited : List String) : Bool :=
  match queue with
  | [] => false
  | (name, depth) :: queue =>
    if name = marker then true
    else if maxMetaDepth ≤ depth ∨ name ∈ visited then search marker queue visited
    else
      search marker (queue ++ atDepth (depth + 1) (m.markersOfType name))
        (name :: visited)
termination_by m.workload queue
decreasing_by
  · exact workload_lt_cons
  · rename_i hnew
    exact workload_follow_lt (Nat.lt_of_not_le fun hdepth => hnew (Or.inl hdepth))

/-- Whether an annotation on the element, or one on its annotations at any
followed depth, is of a given type. -/
def isMetaAnnotatedWith (e : Element) (marker : String) : Bool :=
  m.search marker (atDepth 0 e.markers) []

end CodeModel

end Conformance
