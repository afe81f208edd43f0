import AttributeViews.Assignment
import AttributeViews.Attribute
import AttributeViews.Attribute.Converters
import AttributeViews.Calendar
import AttributeViews.Calendar.Epoch
import AttributeViews.Calendar.Reading
import AttributeViews.Command
import AttributeViews.Command.Actions
import AttributeViews.Command.Arguments
import AttributeViews.Command.Line
import AttributeViews.Config
import AttributeViews.Decimal.Double
import AttributeViews.Decimal.Layout
import AttributeViews.Decimal.Shortest
import AttributeViews.Disk
import AttributeViews.Document.Moment
import AttributeViews.Document.Number
import AttributeViews.Document.Reader
import AttributeViews.Document.Section
import AttributeViews.Document.Text
import AttributeViews.Error
import AttributeViews.FileTree
import AttributeViews.FileTree.Access
import AttributeViews.FileTree.InPlace
import AttributeViews.FileTree.Session
import AttributeViews.FileTree.Setting
import AttributeViews.FileTree.Structure
import AttributeViews.Identity
import AttributeViews.Identity.Stamped
import AttributeViews.Journal
import AttributeViews.Lookup
import AttributeViews.Main
import AttributeViews.Node
import AttributeViews.Path
import AttributeViews.Permission
import AttributeViews.Permission.Notation
import AttributeViews.Principal
import AttributeViews.Proofs.Answers
import AttributeViews.Proofs.Assignment
import AttributeViews.Proofs.Attribute.Outcomes
import AttributeViews.Proofs.Attribute.Refusals
import AttributeViews.Proofs.Attribute.Settling
import AttributeViews.Proofs.Attribute.StoredForms
import AttributeViews.Proofs.Command
import AttributeViews.Proofs.Command.ForcedInitialization
import AttributeViews.Proofs.Command.UnknownAttributes
import AttributeViews.Proofs.Command.UnknownViews
import AttributeViews.Proofs.Config
import AttributeViews.Proofs.Config.UnknownOptions
import AttributeViews.Proofs.Disk
import AttributeViews.Proofs.Document
import AttributeViews.Proofs.Document.Front
import AttributeViews.Proofs.FileTree.Creation
import AttributeViews.Proofs.FileTree.InPlace
import AttributeViews.Proofs.FileTree.Ingestion
import AttributeViews.Proofs.FileTree.Isolation
import AttributeViews.Proofs.FileTree.Listing
import AttributeViews.Proofs.FileTree.Lookups
import AttributeViews.Proofs.FileTree.Memory
import AttributeViews.Proofs.FileTree.MovesInARow
import AttributeViews.Proofs.FileTree.Moving
import AttributeViews.Proofs.FileTree.Setting
import AttributeViews.Proofs.FileTree.Soundness
import AttributeViews.Proofs.FileTree.Spelling
import AttributeViews.Proofs.FileTree.Steps
import AttributeViews.Proofs.FileTree.Structure
import AttributeViews.Proofs.FileTree.Unrelated
import AttributeViews.Proofs.Journal
import AttributeViews.Proofs.Path
import AttributeViews.Proofs.Permission.Notation
import AttributeViews.Proofs.Registry.AttributeMap
import AttributeViews.Proofs.Registry.Building
import AttributeViews.Proofs.Registry.Canonical
import AttributeViews.Proofs.Registry.Catalog
import AttributeViews.Proofs.Registry.Circles
import AttributeViews.Proofs.Registry.Closure
import AttributeViews.Proofs.Registry.Descent
import AttributeViews.Proofs.Registry.Inheritance
import AttributeViews.Proofs.Registry.Ordering
import AttributeViews.Proofs.Registry.Printing
import AttributeViews.Proofs.Registry.ReadingOrder
import AttributeViews.Proofs.Registry.Refusals
import AttributeViews.Proofs.Registry.Replay
import AttributeViews.Proofs.Registry.Routing
import AttributeViews.Proofs.Registry.Selection
import AttributeViews.Proofs.Registry.Standard
import AttributeViews.Proofs.Registry.Starting
import AttributeViews.Proofs.Registry.Ties
import AttributeViews.Proofs.Registry.Turns
import AttributeViews.Proofs.Registry.Validity
import AttributeViews.Proofs.Registry.Ways
import AttributeViews.Proofs.Snapshot
import AttributeViews.Proofs.Storing
import AttributeViews.Proofs.View.Building
import AttributeViews.Proofs.View.Calls
import AttributeViews.Proofs.View.OnDemand
import AttributeViews.Proofs.View.Request
import AttributeViews.Proofs.View.Setters
import AttributeViews.Proofs.View.Sharing
import AttributeViews.Proofs.View.Times
import AttributeViews.Provider
import AttributeViews.Provider.Standard
import AttributeViews.Registry
import AttributeViews.Registry.Access
import AttributeViews.Registry.Catalog
import AttributeViews.Registry.Inheritance
import AttributeViews.Registry.Starting
import AttributeViews.Registry.Walk
import AttributeViews.Snapshot
import AttributeViews.Sorted
import AttributeViews.Table
import AttributeViews.Text.Blank
import AttributeViews.Text.Hex
import AttributeViews.Text.Printable
import AttributeViews.Text.Quoted
import AttributeViews.Text.Split
import AttributeViews.Text.Unstyled
import AttributeViews.Value
import AttributeViews.Value.Elements
import AttributeViews.Value.Json
import AttributeViews.Version
import AttributeViews.View
import AttributeViews.View.Building
import AttributeViews.View.Call
import AttributeViews.View.OnDemand
