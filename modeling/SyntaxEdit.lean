import SyntaxEdit.Indentation
import SyntaxEdit.Language.Registry
import SyntaxEdit.LineBuffer
import SyntaxEdit.PackFile.Build
import SyntaxEdit.Path.Semantic
import SyntaxEdit.Path.Structural
import SyntaxEdit.Splice
import SyntaxEdit.Text.Similarity
import SyntaxEdit.Tree.Occurrence
import SyntaxEdit.Query.Engine
import SyntaxEdit.Construct.DocumentOrder
import SyntaxEdit.Construct.Index
import SyntaxEdit.Construct.Resolution
import SyntaxEdit.Construct.Suggestion
import SyntaxEdit.Construct.Body
import SyntaxEdit.Edit.Error
import SyntaxEdit.Edit.Member
import SyntaxEdit.Edit.Removal
import SyntaxEdit.Edit.Target
import SyntaxEdit.Diff.Hunk
import SyntaxEdit.Diff.Unified
import SyntaxEdit.Edit.Basic
import SyntaxEdit.Edit.Chain
import SyntaxEdit.Query.Cache
import SyntaxEdit.Tree.ParserPool
import SyntaxEdit.Report.Basic
import SyntaxEdit.CommandLine.Arguments
import SyntaxEdit.CommandLine.Failure
import SyntaxEdit.CommandLine.Invocation
import SyntaxEdit.CommandLine.Session
import SyntaxEdit.CommandLine.Description
import SyntaxEdit.Main
import SyntaxEdit.Proofs.Trimming
import SyntaxEdit.Proofs.StructuralCodec
import SyntaxEdit.Proofs.NodePaths
import SyntaxEdit.Proofs.Splitting
import SyntaxEdit.Proofs.SemanticCodec
import SyntaxEdit.Proofs.MatchedNodes
import SyntaxEdit.Proofs.ListedPaths
import SyntaxEdit.Proofs.LineBreaks
import SyntaxEdit.Proofs.Lines
import SyntaxEdit.Proofs.WellFormed
import SyntaxEdit.Proofs.Removal
import SyntaxEdit.Proofs.Targets
import SyntaxEdit.Proofs.AddressingAgreement
import SyntaxEdit.Proofs.RemovalBreaks
import SyntaxEdit.Proofs.Placement
import SyntaxEdit.Proofs.NewMembers
import SyntaxEdit.Proofs.VisibleText
import SyntaxEdit.Proofs.MemberBreaks
import SyntaxEdit.Proofs.QueryReaders
import SyntaxEdit.Proofs.QueryJoining
import SyntaxEdit.Proofs.QueryGaps
import SyntaxEdit.Proofs.PatternSplitting
import SyntaxEdit.Proofs.LenientCompilation
import SyntaxEdit.Proofs.MatchLists
import SyntaxEdit.Proofs.WellPlaced
import SyntaxEdit.Proofs.EditHistory
import SyntaxEdit.Proofs.NodeUpdates
import SyntaxEdit.Proofs.ParserReuse
import SyntaxEdit.Proofs.QueryReuse
import SyntaxEdit.Proofs.RegistryHistory
import SyntaxEdit.Proofs.WrittenFiles
import SyntaxEdit.Proofs.EnclosingClasses
import SyntaxEdit.Proofs.ContainerChains
import SyntaxEdit.Proofs.PathCodec
import SyntaxEdit.Proofs.RemovedLines
import SyntaxEdit.Proofs.LineEdits
import SyntaxEdit.Proofs.Occurrences
import SyntaxEdit.Proofs.SmallestNodes
import SyntaxEdit.Proofs.KeptPatterns
import SyntaxEdit.Proofs.Dedenting
import SyntaxEdit.Proofs.Lowercasing
import SyntaxEdit.Proofs.PackBuilding
import SyntaxEdit.Proofs.PackInheritance
import SyntaxEdit.Proofs.NodeSearch
import SyntaxEdit.Proofs.Suggestions
import SyntaxEdit.Proofs.ChangeIndicators
