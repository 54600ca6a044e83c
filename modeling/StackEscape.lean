import StackEscape.Analysis
import StackEscape.Body.Blame
import StackEscape.Body.Call
import StackEscape.Body.Resolve
import StackEscape.Body.Restriction
import StackEscape.Body.State
import StackEscape.Body.Walk
import StackEscape.Capability.Basic
import StackEscape.Capability.Derive
import StackEscape.Context
import StackEscape.Contract.Basic
import StackEscape.Contract.Placement
import StackEscape.Contract.Store
import StackEscape.Declarations.Clause
import StackEscape.Declarations.Pass
import StackEscape.Diagnostic.Basic
import StackEscape.Diagnostic.Code
import StackEscape.Diagnostic.OfError
import StackEscape.Diagnostic.Report
import StackEscape.Diagnostic.Terminal
import StackEscape.EscapeError
import StackEscape.Facts
import StackEscape.Graph.Cycle
import StackEscape.Graph.Preorder
import StackEscape.Json.Reader
import StackEscape.Json.Record
import StackEscape.Json.Value
import StackEscape.Json.Writer
import StackEscape.Mixing
import StackEscape.Options
import StackEscape.Proofs.Agreement
import StackEscape.Proofs.Sites
import StackEscape.Scope.Level
import StackEscape.Scope.Pair
import StackEscape.Shape
import StackEscape.Source.LineMap
import StackEscape.Source.Span
import StackEscape.Symbols
import StackEscape.Table
import StackEscape.Tree.Basic
import StackEscape.Tree.Names
import StackEscape.Tree.Reader
import StackEscape.Tree.TypeRef
import StackEscape.Tree.Writer
import StackEscape.TypeError
import StackEscape.Proofs.Filed
import StackEscape.Proofs.Coverage
import StackEscape.Proofs.Rules
import StackEscape.Proofs.BodyCoverage
import StackEscape.Proofs.MemberWalk
import StackEscape.Proofs.Accepted
import StackEscape.Proofs.Transparency
import StackEscape.Proofs.Forwarding
import StackEscape.Proofs.Sinks
import StackEscape.Proofs.Walks
import StackEscape.Proofs.Outline
import StackEscape.Proofs.Rescoping
import StackEscape.Proofs.Following
import StackEscape.Proofs.FollowingRules
import StackEscape.Proofs.BodyFollowing
import StackEscape.Proofs.Noninterference
import StackEscape.Proofs.OwnContract
import StackEscape.Proofs.Captures
import StackEscape.Proofs.Binders
import StackEscape.Proofs.Aliases
import StackEscape.Proofs.FiledParams
import StackEscape.Proofs.Retyping
import StackEscape.Proofs.Accesses
import StackEscape.Proofs.Iteration
import StackEscape.Proofs.PatternPaths
import StackEscape.Proofs.PatternAccess
import StackEscape.Proofs.OutVars
import StackEscape.Proofs.Derivation
import StackEscape.Proofs.Receivers
import StackEscape.Proofs.Hoisting
import StackEscape.Proofs.Hiding
import StackEscape.Proofs.BodyHiding
import StackEscape.Proofs.Moving
import StackEscape.Proofs.Steps
import StackEscape.Proofs.Visits
import StackEscape.Proofs.Closures
import StackEscape.Proofs.Shapes
import StackEscape.Proofs.TypedParts
import StackEscape.Proofs.Heeding
import StackEscape.Proofs.HeedingRules
import StackEscape.Proofs.BodyHeeding
import StackEscape.Proofs.Suspension
import StackEscape.Proofs.Trees
import StackEscape.Proofs.DeclaredTypes
import StackEscape.Proofs.NullTests
import StackEscape.Proofs.BoundMembers
import StackEscape.Proofs.Inheritance
import StackEscape.Proofs.Reordering
import StackEscape.Proofs.ReorderedDeclarations
import StackEscape.Proofs.Repeating
import StackEscape.Proofs.BodyRepeating
import StackEscape.Proofs.ReorderedRuns
import StackEscape.Proofs.Implementations
import StackEscape.Proofs.OrdinaryRuns
import StackEscape.Proofs.TreeText
import StackEscape.Proofs.RequiredMembers
import StackEscape.Proofs.ConstraintGraph
import StackEscape.Proofs.RuntimeSupport
import StackEscape.Proofs.Clauses
import StackEscape.Proofs.Chains
import StackEscape.Proofs.WalkInduction
import StackEscape.Proofs.Growth
import StackEscape.Proofs.Bracketing
import StackEscape.Proofs.Discipline
import StackEscape.Proofs.BodyDiscipline
import StackEscape.Proofs.MixingReports
import StackEscape.Proofs.BlamePaths
import StackEscape.Proofs.SourceLines
import StackEscape.Proofs.PropertyWrites
import StackEscape.Proofs.ReportedPlaces
import StackEscape.Proofs.WordArithmetic
import StackEscape.Proofs.TextInWords
import StackEscape.Proofs.ReportsInWords
