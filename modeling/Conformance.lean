import Conformance.Assertion
import Conformance.CodeBase.Build
import Conformance.CodeBase.Model
import Conformance.Condition.Scripted
import Conformance.Evaluation.Json
import Conformance.Inspect
import Conformance.Proofs.Indexed
import Conformance.Proofs.Sound
import Conformance.Proofs.Declared
import Conformance.Proofs.Linked
import Conformance.Proofs.WellFormed
import Conformance.Proofs.Answers
import Conformance.Proofs.Checks
import Conformance.Proofs.Readings
import Conformance.Proofs.DeclarationOrder
import Conformance.Proofs.AddedReferences
import Conformance.Proofs.Scans
import Conformance.Proofs.FreshRuns
import Conformance.Proofs.Completion
import Conformance.Proofs.Isolation
import Conformance.Proofs.MetaAnnotations
import Conformance.Proofs.PackagePatterns
import Conformance.Proofs.Folders
import Conformance.Proofs.Assertions
import Conformance.Proofs.Merging
import Conformance.Proofs.Bracketings
import Conformance.Proofs.ForbiddenDependencies
import Conformance.Proofs.UnprotectedCalls
import Conformance.Proofs.UnmarkedUsers
import Conformance.Proofs.Persistence
import Conformance.Proofs.Defects
import Conformance.Proofs.Identities
import Conformance.Proofs.FullNames
import Conformance.Proofs.ClassTargets
import Conformance.Proofs.Relaxation
import Conformance.Proofs.Interleavings
import Conformance.Proofs.Narrowings
import Conformance.Proofs.Negations
import Conformance.Proofs.Reports
import Conformance.Proofs.Residence
