/-
Conformance/Catalog.lean

The rules that come with the library, for code that uses JUnit, JPA and
Spring, and the presets they are offered in.
-/
import Conformance.Rule

namespace Conformance.Catalog

/-! ### The types and packages the rules speak of -/

/-- The annotation of classes that JPA stores. -/
def entity : String := "jakarta.persistence.Entity"

/-- The annotations of methods that JPA calls at set times. -/
def lifeCycleCallbacks : List String :=
  ["jakarta.persistence.PrePersist", "jakarta.persistence.PreUpdate",
    "jakarta.persistence.PostPersist", "jakarta.persistence.PostUpdate"]

/-- The annotation of classes that give access to stored data. -/
def repository : String := "org.springframework.stereotype.Repository"

/-- The annotation of classes that hold business logic. -/
def service : String := "org.springframework.stereotype.Service"

/-- The annotation of classes that answer requests. -/
def controller : String := "org.springframework.stereotype.Controller"

/-- The annotation of code that runs in a transaction. -/
def transactional : String :=
  "org.springframework.transaction.annotation.Transactional"

/-! ### Conditions -/

/-- A type uses JUnit 4, whose types lie in one package; those of JUnit 5 lie
in others. -/
def useJUnit4 : Condition :=
  .describedAs "use JUnit 4" (.dependOn (.inPackage "org.junit"))

/-- A type uses `java.util.Date`. -/
def useJavaUtilDate : Condition :=
  .describedAs "use java.util.Date" (.dependOn (.ofType "java.util.Date"))

/-- Accesses from and to a type are made in a transaction. -/
def accessedByTransactionalCode : Condition :=
  .accessedUnder transactional

/-! ### Rules -/

/-- Nothing uses JUnit 4. -/
def noJUnit4 : Rule :=
  (Selection.noClasses.should useJUnit4)
    |>.because "Use JUnit 5 instead"
    |>.named "no-classes-should-use-junit-4"

/-- Nothing uses `java.util.Date`. -/
def noJavaUtilDate : Rule :=
  (Selection.noClasses.should useJavaUtilDate)
    |>.because "Use dates API in java.time instead"
    |>.named "no-classes-should-use-java-util-date"

/-- JPA can make entities: it needs a public constructor for it. -/
def entitiesHavePublicEmptyConstructor : Rule :=
  (Selection.classes.that (.annotatedWith entity))
    |>.should .publicEmptyConstructor
    |>.named "jpa-entities-have-public-empty-constructor"

/-- JPA can call the callbacks: they take and return nothing. -/
def lifeCycleCallbacksCorrectlyDeclared : Rule :=
  (Selection.methods.that (.annotatedByAny lifeCycleCallbacks))
    |>.should .voidWithoutParameters
    |>.named "jpa-life-cycle-annotations-correctly-declared"

/-- The classes annotated as repositories. -/
def repositories : Selection :=
  Selection.classes.that (.annotatedWith repository)

/-- Repositories are accessed in transactions. -/
def repositoriesAccessedByTransactionalCode : Rule :=
  (repositories.should accessedByTransactionalCode).named
    ("spring-repositories-accessed-only-by-"
      ++ "transactional-methods-or-classes")

/-- Repositories are used by services alone. -/
def repositoriesAccessedByServices : Rule :=
  (repositories.should (.accessedOnlyBy service)).named
    "spring-repositories-accessed-only-by-service-classes"

/-- Repositories are used by services and controllers alone. -/
def repositoriesAccessedByServicesOrControllers : Rule :=
  (repositories.should (.accessedOnlyByAny [service, controller])).named
    "spring-repositories-accessed-only-by-service-or-controller-classes"

/-! ### Presets -/

/-- Rules for all code. -/
def standardRules : List Rule := [noJUnit4, noJavaUtilDate]

/-- Rules for code that uses JPA. -/
def jpaRules : List Rule :=
  [entitiesHavePublicEmptyConstructor, lifeCycleCallbacksCorrectlyDeclared]

/-- Rules for code that uses Spring. -/
def springRules : List Rule :=
  [repositoriesAccessedByTransactionalCode, repositoriesAccessedByServices]

/-- All rules.  The last one loosens the one for services, and is in no
smaller preset. -/
def allRules : List Rule :=
  standardRules ++ jpaRules ++ springRules
    ++ [repositoriesAccessedByServicesOrControllers]

/-- The rule with a name. -/
def rule? (name : String) : Option Rule :=
  allRules.find? fun r => r.name == some name

/-- A choice of rules. -/
inductive Preset where
  | standard
  | jpa
  | spring
  | all
  deriving DecidableEq, Repr

/-- The name a preset is asked for by. -/
def Preset.name : Preset → String
  | .standard => "standard"
  | .jpa => "jpa"
  | .spring => "spring"
  | .all => "all"

/-- The preset with a name. -/
def Preset.ofName? : String → Option Preset
  | "standard" => some .standard
  | "jpa" => some .jpa
  | "spring" => some .spring
  | "all" => some .all
  | _ => none

/-- The rules of a preset. -/
def Preset.rules : Preset → List Rule
  | .standard => standardRules
  | .jpa => jpaRules
  | .spring => springRules
  | .all => allRules

end Conformance.Catalog
