import LintRepair.Command
import LintRepair.Main
import LintRepair.Proofs.Buffer.Text
import LintRepair.Proofs.Buffer.Characters
import LintRepair.Proofs.Line.Editing
import LintRepair.Proofs.Statement.Reader
import LintRepair.Proofs.Statement.Reading
import LintRepair.Proofs.Import.Cut
import LintRepair.Proofs.Import.Removal
import LintRepair.Proofs.Import.Repeated
import LintRepair.Proofs.Line.ColumnEdit
import LintRepair.Proofs.Patch.OneLine
import LintRepair.Proofs.Patch.LineByLine
import LintRepair.Proofs.Patch.Edits
import LintRepair.Proofs.Patch.Blanks
import LintRepair.Proofs.Patch.Written
import LintRepair.Proofs.Patch.Waiting
import LintRepair.Proofs.Statement.Scanner
import LintRepair.Proofs.Statement.Layout
import LintRepair.Proofs.Statement.Trimming
import LintRepair.Proofs.Statement.Tiling
import LintRepair.Proofs.Statement.Regions
import LintRepair.Proofs.Import.Neighbours
import LintRepair.Proofs.Import.Split
import LintRepair.Proofs.Import.Swap
import LintRepair.Proofs.Import.Order
import LintRepair.Proofs.Patch.Clash
import LintRepair.Proofs.Statement.Delimiting
import LintRepair.Proofs.Statement.Section
import LintRepair.Proofs.Patch.Indents
import LintRepair.Proofs.Patch.Accounting
import LintRepair.Proofs.Patch.Groups
import LintRepair.Proofs.Batch.History
import LintRepair.Proofs.Batch.Locality
import LintRepair.Proofs.Batch.Merging
import LintRepair.Proofs.Batch.Alone
import LintRepair.Proofs.Batch.Interleaving
import LintRepair.Proofs.Batch.Settled
import LintRepair.Proofs.Line.TabStops
import LintRepair.Proofs.Patch.Tabs
import LintRepair.Proofs.Indent.Message
import LintRepair.Proofs.Indent.Convergence
import LintRepair.Proofs.Line.Spacing
import LintRepair.Proofs.Patch.BothSides
import LintRepair.Proofs.Patch.Replay
import LintRepair.Proofs.Line.Encoding
import LintRepair.Proofs.Batch.Notes
import LintRepair.Proofs.Patch.Refusals
