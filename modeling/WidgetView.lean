import WidgetView.Main
import WidgetView.Parse.Cursor
import WidgetView.Proofs.Tokenizers
import WidgetView.Proofs.GeneratedNames
import WidgetView.Proofs.Reparenting
import WidgetView.Proofs.Repairs
import WidgetView.Proofs.ParentCycles
import WidgetView.Proofs.FileFaults
import WidgetView.Proofs.Composition
import WidgetView.Proofs.Reformatting
import WidgetView.Proofs.Excerpts
import WidgetView.Proofs.Recovery
import WidgetView.Proofs.Blame
import WidgetView.Proofs.Arrivals
import WidgetView.Proofs.Bodies
import WidgetView.Proofs.LintRuns
import WidgetView.Proofs.Bookkeeping
import WidgetView.Proofs.FixLines
import WidgetView.Proofs.Replacement
import WidgetView.Proofs.NamesInOrder
import WidgetView.Proofs.Backups
import WidgetView.Proofs.Settled
import WidgetView.Proofs.ParentTables
import WidgetView.Proofs.ErrorPositions
import WidgetView.Proofs.Brackets
import WidgetView.Proofs.Literals
import WidgetView.Proofs.FixLists
import WidgetView.Proofs.Fragments
import WidgetView.Proofs.GeneratedViews
import WidgetView.Proofs.Mutations
import WidgetView.Proofs.MacroCalls
import WidgetView.Proofs.GroupCopies
import WidgetView.Proofs.AngleDepth
import WidgetView.Proofs.Cursors
