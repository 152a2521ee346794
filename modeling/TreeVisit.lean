import TreeVisit.Board
import TreeVisit.Config
import TreeVisit.Options
import TreeVisit.Program
import TreeVisit.Registration
import TreeVisit.Tree.Grammar
import TreeVisit.Tree.Host
import TreeVisit.Walk.Calls
import TreeVisit.Walk.Pass
import TreeVisit.Proofs.Walk.Course
import TreeVisit.Proofs.Walk.Order
import TreeVisit.Proofs.Text.Classes
import TreeVisit.Proofs.Tree.Reading
import TreeVisit.Proofs.Tree.RoundTrip
import TreeVisit.Proofs.Walk.Sharing
import TreeVisit.Proofs.Walk.Matching
import TreeVisit.Proofs.Walk.Rebuilding
import TreeVisit.Proofs.Walk.Levels
import TreeVisit.Proofs.Walk.Record
import TreeVisit.Proofs.Walk.Session
import TreeVisit.Proofs.Walk.Units
import TreeVisit.Proofs.Walk.WellFormed
import TreeVisit.Proofs.SortedMap
import TreeVisit.Proofs.Program.Declarations
import TreeVisit.Proofs.Program.Additions
import TreeVisit.Proofs.Program.Order
import TreeVisit.Proofs.Board
import TreeVisit.Proofs.Registration
import TreeVisit.Proofs.Tree.Spots
import TreeVisit.Proofs.Walk.Placing
import TreeVisit.Proofs.Walk.Accounting
import TreeVisit.Proofs.Walk.Deletion
import TreeVisit.Proofs.Walk.Editing
import TreeVisit.Proofs.Walk.Rationing
import TreeVisit.Proofs.Level
import TreeVisit.Proofs.Tree.Refusal
import TreeVisit.Proofs.Tree.Progress
import TreeVisit.Proofs.Document.Scalars
import TreeVisit.Proofs.Document.RoundTrip
import TreeVisit.Proofs.Tree.Listing
import TreeVisit.Proofs.Walk.Children
import TreeVisit.Proofs.Text.Order
import TreeVisit.Proofs.Config
import TreeVisit.Proofs.Options
