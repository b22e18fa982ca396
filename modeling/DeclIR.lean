import DeclIR.Pass.Pipeline
import DeclIR.Program.Same
import DeclIR.Settings.FileTree
import DeclIR.Listing
import DeclIR.Script.Recipe
import DeclIR.Source.Excerpt
import DeclIR.Proofs.Traversal.Observer
import DeclIR.Proofs.Code.Anchors
import DeclIR.Proofs.Code.Walked
import DeclIR.Proofs.Traversal.Observation
import DeclIR.Proofs.Consistency.Criterion
import DeclIR.Proofs.Consistency.Placement
import DeclIR.Proofs.Consistency.Report
import DeclIR.Proofs.Code.Rewriting
import DeclIR.Proofs.Traversal.Rewriting
import DeclIR.Proofs.Traversal.Resolution
import DeclIR.Proofs.Inlining.Substitution
import DeclIR.Proofs.Pipeline.OnePass
import DeclIR.Proofs.Pipeline.Schedule
import DeclIR.Proofs.Inlining.Faults
import DeclIR.Proofs.Inlining.Reads
import DeclIR.Proofs.Inlining.Targets
import DeclIR.Proofs.Pipeline.Standard
import DeclIR.Proofs.Pipeline.Repetition
import DeclIR.Proofs.Pipeline.Convergence
import DeclIR.Proofs.Traversal.Tree
import DeclIR.Proofs.Traversal.Protocol
import DeclIR.Proofs.Traversal.Initializers
import DeclIR.Proofs.Construction.Changes
import DeclIR.Proofs.Construction.WellFormed
import DeclIR.Proofs.Consistency.Positions
import DeclIR.Proofs.Traversal.FieldFrame
import DeclIR.Proofs.Legality.Journal
import DeclIR.Proofs.Legality.Passes
import DeclIR.Proofs.Legality.Violations
import DeclIR.Proofs.Legality.Runs
import DeclIR.Proofs.Legality.Accounts
import DeclIR.Proofs.Consistency.TypeByType
import DeclIR.Proofs.Pipeline.OneByOne
import DeclIR.Proofs.Traversal.Conduct
import DeclIR.Proofs.Traversal.Quiet
import DeclIR.Proofs.Traversal.Log
import DeclIR.Proofs.Traversal.StatementEdits
import DeclIR.Proofs.Traversal.BottomUp
import DeclIR.Proofs.Traversal.Refusal
import DeclIR.Proofs.Traversal.Balance
import DeclIR.Proofs.Traversal.DeclarationFrame
import DeclIR.Proofs.Handles.Outline
import DeclIR.Proofs.Handles.Register
import DeclIR.Proofs.Handles.Validity
import DeclIR.Proofs.Provenance.Chains
import DeclIR.Proofs.Provenance.Renderings
import DeclIR.Proofs.Settings.Reading
import DeclIR.Proofs.Settings.Assignments
import DeclIR.Proofs.Settings.ErrorPlaces
import DeclIR.Proofs.Settings.Comments
import DeclIR.Proofs.Settings.Nearest
import DeclIR.Proofs.Listing.Shapes
import DeclIR.Proofs.Listing.Legibility
import DeclIR.Proofs.Listing.Literals
import DeclIR.Proofs.Listing.Lines
import DeclIR.Proofs.Listing.Structure
import DeclIR.Proofs.Listing.Capture
import DeclIR.Proofs.Listing.Dependence
import DeclIR.Proofs.Inlining.Types
