import ServiceCheck.Config
import ServiceCheck.Diagnostic.Annotated
import ServiceCheck.FaultFlow.Report
import ServiceCheck.Json.Writer
import ServiceCheck.Program.Construction
import ServiceCheck.Traversal
import ServiceCheck.Types.Admission
import ServiceCheck.Types.Equivalence
import ServiceCheck.Verification.Log
import ServiceCheck.Verification.Verdict
import ServiceCheck.Wire.Declaration
import ServiceCheck.Proofs.Types.Unfolding
import ServiceCheck.Proofs.Types.Comparison
import ServiceCheck.Proofs.Types.Matching
import ServiceCheck.Proofs.Types.SameUnfolding
import ServiceCheck.Proofs.Types.OutOfStep
import ServiceCheck.Proofs.Types.AlikeLaws
import ServiceCheck.Proofs.Types.Restated
import ServiceCheck.Proofs.Verification.Ending
import ServiceCheck.Proofs.FaultFlow.Forest
import ServiceCheck.Proofs.Program.AlikeDictionaries
import ServiceCheck.Proofs.FaultFlow.Resolution
import ServiceCheck.Proofs.FaultFlow.Edits
import ServiceCheck.Proofs.FaultFlow.Survival
import ServiceCheck.Proofs.FaultFlow.Effects
import ServiceCheck.Proofs.FaultFlow.Reading
import ServiceCheck.Proofs.FaultFlow.Semantics
import ServiceCheck.Proofs.FaultFlow.Meaning
import ServiceCheck.Proofs.FaultFlow.Escaping
import ServiceCheck.Proofs.Correlation.StaticPaths
import ServiceCheck.Proofs.Correlation.Claims
import ServiceCheck.Proofs.Verification.Acceptance
import ServiceCheck.Proofs.Correlation.Soundness
import ServiceCheck.Proofs.Program.Parts
import ServiceCheck.Proofs.Verification.Sites
import ServiceCheck.Proofs.FaultFlow.Uncaught
import ServiceCheck.Proofs.Json.Reread
import ServiceCheck.Proofs.Program.DistinctKeys
import ServiceCheck.Proofs.Verification.Agreement
import ServiceCheck.Proofs.Correlation.SharedPaths
import ServiceCheck.Proofs.Verification.PathUsage
import ServiceCheck.Proofs.Wire.Declarations
import ServiceCheck.Proofs.Wire.RoundTrip
import ServiceCheck.Proofs.Verification.Kinds
import ServiceCheck.Proofs.Verification.InForce
import ServiceCheck.Proofs.Correlation.Binding
import ServiceCheck.Proofs.Correlation.Registers
import ServiceCheck.Proofs.Correlation.FirstClaim
import ServiceCheck.Proofs.Correlation.Outcome
import ServiceCheck.Proofs.Verification.KnownLinks
import ServiceCheck.Proofs.Verification.Mismatches
import ServiceCheck.Proofs.Program.Written
import ServiceCheck.Proofs.Verification.BranchesAround
import ServiceCheck.Proofs.Verification.Wiring
import ServiceCheck.Proofs.Verification.JudgedNodes
import ServiceCheck.Proofs.Verification.Constants
import ServiceCheck.Proofs.Verification.InputChoices
import ServiceCheck.Proofs.Verification.TypeNodes
import ServiceCheck.Proofs.Verification.Visit
import ServiceCheck.Proofs.Verification.CourierContext
import ServiceCheck.Proofs.Verification.Hoisting
import ServiceCheck.Proofs.Types.Extension
import ServiceCheck.Proofs.Types.AdmittedPaths
import ServiceCheck.Proofs.Verification.FreshType
import ServiceCheck.Proofs.Program.Walk
import ServiceCheck.Proofs.Verification.CourierBranches
import ServiceCheck.Proofs.Program.Regrouping
import ServiceCheck.Proofs.Verification.Grouping
import ServiceCheck.Proofs.FaultFlow.Grouping
import ServiceCheck.Proofs.FaultFlow.Isolation
import ServiceCheck.Proofs.Program.Bare
import ServiceCheck.Proofs.Program.BareParts
import ServiceCheck.Proofs.Types.BareTypes
import ServiceCheck.Proofs.Verification.Wording
import ServiceCheck.Proofs.Verification.BareDeclarations
import ServiceCheck.Proofs.Verification.BareRedeclarations
import ServiceCheck.Proofs.Correlation.BareSets
import ServiceCheck.Proofs.FaultFlow.BareStatements
import ServiceCheck.Proofs.Verification.Positions
import ServiceCheck.Proofs.FaultFlow.Repetition
import ServiceCheck.Proofs.FaultFlow.Findings
import ServiceCheck.Proofs.FaultFlow.Termination
import ServiceCheck.Proofs.Json.Grammar
import ServiceCheck.Proofs.Json.Spelled
import ServiceCheck.Proofs.Wire.Yields
import ServiceCheck.Proofs.Wire.DecodedKeys
import ServiceCheck.Proofs.Wire.Layout
import ServiceCheck.Proofs.Wire.Variation
import ServiceCheck.Proofs.Wire.Wordings
import ServiceCheck.Proofs.Text.MarkedRange
import ServiceCheck.Proofs.Verification.Duplicates
import ServiceCheck.Proofs.FaultFlow.Analyser
import ServiceCheck.Proofs.FaultFlow.AnalyserRun
