/-
Conformance/Condition.lean

Conditions: what the selected elements of a rule should be like.  A condition
has a description, which becomes part of the rule's, and a check, which looks
at one element, may follow its dependencies, and reports events.

Compound conditions differ in what happens when a part breaks off.  `and` runs
its parts one after the other on the same events, so that findings made before
the break stay.  `or` and `never` run their parts aside, so that a break
leaves no trace of them.
-/
import Conformance.Condition.Alternatives
import Conformance.Condition.Check
import Conformance.Predicate

namespace Conformance

/-- What a check of the rule's author finds: events, and then perhaps a
contradiction in the model. -/
structure Findings where
  events : List Event := []
  fault : Option Inconsistency := none
  deriving DecidableEq, Repr

/-- What an element should be like, in the words of rules. -/
inductive Condition where
  /-- A type uses another type with the property. -/
  | dependOn (that : Predicate)
  /-- A type has a public constructor without parameters. -/
  | publicEmptyConstructor
  /-- A method returns nothing and takes nothing. -/
  | voidWithoutParameters
  /-- A type is used only by types meta-annotated with the marker. -/
  | accessedOnlyBy (marker : String)
  /-- A type is used only by types meta-annotated with one of the markers. -/
  | accessedOnlyByAny (markers : List String)
  /-- Accesses from and to a type are made by code that carries the marker,
  or whose type does. -/
  | accessedUnder (marker : String)
  /-- A check of the rule's author. -/
  | custom (description : String) (check : CodeModel → Element → Findings)
  | and (c d : Condition)
  | or (c d : Condition)
  | never (c : Condition)
  /-- The same condition in other words. -/
  | describedAs (description : String) (c : Condition)

namespace Condition

/-- An annotation type in messages. -/
def label (marker : String) : String :=
  "@" ++ Name.simple marker

/-- Several annotation types in messages. -/
def labels (markers : List String) : String :=
  " or ".intercalate (markers.map label)

/-- The condition in words. -/
def description : Condition → String
  | dependOn that => "depend on classes that " ++ that.description
  | publicEmptyConstructor => "have a public empty constructor"
  | voidWithoutParameters => "be a void without any parameter"
  | accessedOnlyBy marker => "be called by " ++ label marker ++ " classes"
  | accessedOnlyByAny markers =>
    "be called by " ++ labels markers ++ " classes"
  | accessedUnder marker =>
    "be accessed by " ++ label marker ++ " classes or methods"
  | custom description _ => description
  | and c d => c.description ++ " and " ++ d.description
  | or c d => c.description ++ " or " ++ d.description
  | never c => "not " ++ c.description
  | describedAs description _ => description

/-! ### The built-in checks -/

/-- Reports a dependency if its target's type has the property, and tells
whether it has. -/
def checkTarget (m : CodeModel) (that : Predicate) (d : Dependency) :
    Check Bool := do
  let targetClass ← Check.lookup (m.resolve d.targetClass)
  if that.holds m targetClass then
    let origin ← Check.lookup (m.resolve d.origin)
    let originClass ← Check.lookup (m.resolve d.originClass)
    let target ← Check.lookup (m.resolve d.target)
    Check.satisfied (.edge d.id) (d.describe origin originClass target)
    return true
  else return false

/-- Reports every dependency on a type with the property, and tells whether
there is one, or `found` says so already. -/
def checkTargets (m : CodeModel) (that : Predicate) (found : Bool) :
    List Dependency → Check Bool
  | [] => return found
  | d :: ds => do
    let here ← checkTarget m that d
    checkTargets m that (found || here) ds

/-- A type that uses none with the property violates the condition; each use
of one satisfies it. -/
def checkDependOn (m : CodeModel) (that : Predicate) (c : Element) :
    Check Unit := do
  let found ← checkTargets m that false (m.dependenciesFrom c.id)
  if !found then
    Check.violated (.element c.id)
      ("Class " ++ c.fullName ++ " does not depend on classes that "
        ++ that.description)

/-- A type whose parameterless constructor is missing or not public violates
the condition. -/
def checkPublicEmptyConstructor (m : CodeModel) (c : Element) :
    Check Unit :=
  if (m.zeroArgConstructor? c.id).any (·.isPublic) then pure ()
  else
    Check.violated (.element c.id)
      ("Class " ++ c.fullName ++ " has no public empty constructor")

/-- A method that returns something violates the condition. -/
def checkVoid (e : Element) : Check Unit :=
  let returned := e.returnType.getD "void"
  if returned = "void" then pure ()
  else
    Check.violated (.element e.id)
      ("Method " ++ e.fullName ++ " is not a void but returns a " ++ returned)

/-- A method that takes something violates the condition. -/
def checkWithoutParameters (e : Element) : Check Unit :=
  if e.parameters.isEmpty then pure ()
  else
    Check.violated (.element e.id)
      ("Method " ++ e.fullName
        ++ " should be without any parameter but has "
        ++ toString e.parameters.length ++ " parameter(s)")

/-- The types of the given dependencies' origins, one by one. -/
def resolveOrigins (m : CodeModel) :
    List Dependency → Except Inconsistency (List Element)
  | [] => .ok []
  | d :: ds => do
    let origin ← m.resolve d.originClass
    return origin :: (← resolveOrigins m ds)

/-- The types that use type `c`, each once, in order of first use. -/
def dependentClasses (m : CodeModel) (c : ElementId) :
    Except Inconsistency (List Element) :=
  (resolveOrigins m (m.dependenciesInto c)).map
    (firstSeenBy (·.id) [])

/-- Each user of the type that lacks every marker violates the condition;
`complaint` says so in words. -/
def checkUsers (m : CodeModel) (markers : List String) (complaint : String)
    (c : Element) : Check Unit := do
  let users ← Check.lookup (dependentClasses m c.id)
  Check.emit <| (users.filter fun user =>
      !markers.any (m.isMetaAnnotatedWith user)).map fun user =>
    .violated (.element user.id)
      ("Class " ++ user.fullName ++ " " ++ complaint)

/-- What is found about an access: code of the type itself may make it, and
code that carries the marker or whose type does. -/
def judgeCall (marker : String) (c : Element) (call : Dependency)
    (origin originClass : Element) : Event :=
  if originClass.id = c.id then
    .satisfied (.edge call.id)
      ("Method " ++ origin.fullName ++ " is in the same class")
  else if origin.isAnnotatedWith marker then
    .satisfied (.edge call.id)
      ("Method " ++ origin.fullName ++ " is " ++ label marker)
  else if originClass.isAnnotatedWith marker then
    .satisfied (.edge call.id)
      ("Class " ++ originClass.fullName ++ " is " ++ label marker)
  else
    .violated (.edge call.id)
      ("Neither Class " ++ originClass.fullName ++ " or Method "
        ++ origin.fullName ++ " are annotated by " ++ label marker)

/-- Judges an access.  Only methods and constructors make accesses. -/
def checkCall (m : CodeModel) (marker : String) (c : Element)
    (call : Dependency) : Check Unit := do
  let origin ← Check.lookup (m.resolve call.origin)
  if !origin.kind.isCodeUnit then
    throw (.notACodeUnit call.id origin.display)
  let originClass ← Check.lookup (m.ownerOf origin)
  Check.emit [judgeCall marker c call origin originClass]

/-- Judges accesses, in order. -/
def checkCalls (m : CodeModel) (marker : String) (c : Element) :
    List Dependency → Check Unit
  | [] => pure ()
  | call :: calls => do
    checkCall m marker c call
    checkCalls m marker c calls

/-! ### Checking -/

/-- Checks one element. -/
def check (m : CodeModel) (e : Element) : Condition → Check Unit
  | dependOn that => checkDependOn m that e
  | publicEmptyConstructor => checkPublicEmptyConstructor m e
  | voidWithoutParameters => do
    checkVoid e
    checkWithoutParameters e
  | accessedOnlyBy marker =>
    checkUsers m [marker] ("is not annotated by " ++ label marker) e
  | accessedOnlyByAny markers =>
    checkUsers m markers ("is annotated neither by " ++ labels markers) e
  | accessedUnder marker =>
    checkCalls m marker e (m.callsFrom e.id ++ m.callsTo e.id)
  | custom _ findings => do
    let found := findings m e
    Check.emit found.events
    match found.fault with
    | some fault => throw fault
    | none => pure ()
  | and c d => do
    check m e c
    check m e d
  | or c d => do
    let left ← Check.aside (check m e c)
    let right ← Check.aside (check m e d)
    Check.emit (Alternatives.merge [left, right])
  | never c => do
    let events ← Check.aside (check m e c)
    Check.emit (events.map Event.flip)
  | describedAs _ c => check m e c

end Condition

end Conformance
