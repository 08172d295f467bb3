import BlockDoc.Main
import BlockDoc.Proofs.Block.Path
import BlockDoc.Proofs.Block.Tree
import BlockDoc.Proofs.Block.Relabel
import BlockDoc.Proofs.Block.UniqueIds
import BlockDoc.Proofs.Block.LeastNumber
import BlockDoc.Proofs.Block.FinalIds
import BlockDoc.Proofs.Block.Shell
import BlockDoc.Proofs.BlockIndex
import BlockDoc.Proofs.Data.Association
import BlockDoc.Proofs.Resolution
import BlockDoc.Proofs.Compilation.Authored
import BlockDoc.Proofs.Compilation.Record
import BlockDoc.Proofs.Compilation.Stages
import BlockDoc.Proofs.Compilation.Claims
import BlockDoc.Proofs.Compilation.Declarations
import BlockDoc.Proofs.Compilation.Diagnostics
import BlockDoc.Proofs.Compilation.References
import BlockDoc.Proofs.Compilation.ClaimOrder
import BlockDoc.Proofs.Compilation.Violations
import BlockDoc.Proofs.Compilation.Context
import BlockDoc.Proofs.Compilation.Limit
import BlockDoc.Proofs.Compilation.Depth
import BlockDoc.Proofs.Compilation.Placement
import BlockDoc.Proofs.Component
import BlockDoc.Proofs.Compilation.ExplicitReferences
import BlockDoc.Proofs.Yaml.Decode
import BlockDoc.Proofs.Texts
import BlockDoc.Proofs.Compilation.InlineReferences
import BlockDoc.Proofs.Text
import BlockDoc.Proofs.Target
import BlockDoc.Proofs.Compilation.AnchorLinks
import BlockDoc.Proofs.Compilation.Linking
import BlockDoc.Proofs.Compilation.DuplicateAnchors
import BlockDoc.Proofs.FrontMatter
import BlockDoc.Proofs.Compilation.Positions
import BlockDoc.Proofs.Block.Record
import BlockDoc.Proofs.Compilation.AuthoredShape
import BlockDoc.Proofs.Data.Bytes
import BlockDoc.Proofs.Data.Json
import BlockDoc.Proofs.Compilation.HashedBytes
import BlockDoc.Proofs.LineIndex
import BlockDoc.Proofs.Position
import BlockDoc.Proofs.Node.MapPosition
import BlockDoc.Proofs.FrontMatter.Body
import BlockDoc.Proofs.Node.Passage
import BlockDoc.Proofs.Node.Lead
import BlockDoc.Proofs.Node.Rebuild
import BlockDoc.Proofs.FilePath
import BlockDoc.Proofs.Fixture.Expectations
import BlockDoc.Proofs.Fixture.Selection
import BlockDoc.Proofs.Fixture.Run
import BlockDoc.Proofs.Block.Rank
import BlockDoc.Proofs.Compilation.StableIds
import BlockDoc.Proofs.Resolution.Outcome
import BlockDoc.Proofs.Node.ReadBlocks
import BlockDoc.Proofs.Node.NestedLists
import BlockDoc.Proofs.Node.TaskStates
import BlockDoc.Proofs.Node.Collect
import BlockDoc.Proofs.Node.Descent
import BlockDoc.Proofs.Node.Nesting
import BlockDoc.Proofs.Node.PlainText
import BlockDoc.Proofs.Node.ItemText
import BlockDoc.Proofs.FrontMatter.Lines
import BlockDoc.Proofs.Target.ReadBack
import BlockDoc.Proofs.TextLink.Pattern
import BlockDoc.Proofs.TextLink.Written
import BlockDoc.Proofs.Inline
import BlockDoc.Proofs.Quote
import BlockDoc.Proofs.Schema.Constraints
import BlockDoc.Proofs.Schema.Acceptance
import BlockDoc.Proofs.Schema.Registration
import BlockDoc.Proofs.Schema.DeclaredTypes
import BlockDoc.Proofs.Fixture.Header
