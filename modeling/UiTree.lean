import UiTree.Bounds
import UiTree.CommandLine
import UiTree.Datum.Basic
import UiTree.Datum.Printer
import UiTree.Datum.Reader
import UiTree.Device
import UiTree.Event
import UiTree.Fault
import UiTree.Lookup
import UiTree.Main
import UiTree.Number.Binary64
import UiTree.Number.Decimal
import UiTree.Outline
import UiTree.Proofs.Bounds
import UiTree.Proofs.Lookup
import UiTree.Proofs.Query.Compiled
import UiTree.Proofs.Query.PathRoute
import UiTree.Proofs.Query.PathText
import UiTree.Proofs.Query.Routes
import UiTree.Proofs.Screen.Coherence
import UiTree.Proofs.Screen.Session
import UiTree.Proofs.Selector.Brackets
import UiTree.Proofs.Selector.Grammar
import UiTree.Proofs.Selector.RoundTrip
import UiTree.Proofs.Snapshot
import UiTree.Proofs.Text.Cut
import UiTree.Proofs.Tree.PathOrder
import UiTree.Proofs.Tree.Preorder
import UiTree.Proofs.XPath.Attribute
import UiTree.Proofs.XPath.Below
import UiTree.Proofs.XPath.Filter
import UiTree.Proofs.XPath.Number
import UiTree.Proofs.XPath.PlaceOrder
import UiTree.Proofs.XPath.Reading
import UiTree.Proofs.XPath.Trail
import UiTree.Proofs.Xml.Accepted
import UiTree.Proofs.Xml.Building
import UiTree.Proofs.Xml.Opening
import UiTree.Proofs.Xml.Written
import UiTree.Query.Basic
import UiTree.Query.PathText
import UiTree.Query.Search
import UiTree.Report
import UiTree.Schema
import UiTree.Screen
import UiTree.Selector.Attribute
import UiTree.Selector.Basic
import UiTree.Selector.Group
import UiTree.Selector.Predicate
import UiTree.Selector.Reader
import UiTree.Service.Basic
import UiTree.Service.Body
import UiTree.Service.Endpoint
import UiTree.Service.Exchange
import UiTree.Settings
import UiTree.Snapshot
import UiTree.Text.Basic
import UiTree.Text.Blank
import UiTree.Text.Digit
import UiTree.Text.Percent
import UiTree.Text.Printable
import UiTree.Text.Quoted
import UiTree.Text.Uppercase
import UiTree.Text.Utf8
import UiTree.Tree
import UiTree.XPath.Element
import UiTree.XPath.Evaluate
import UiTree.XPath.Expr
import UiTree.XPath.Function
import UiTree.XPath.Number
import UiTree.XPath.Place
import UiTree.XPath.Reader
import UiTree.XPath.Value
import UiTree.Xml.Char
import UiTree.Xml.Declaration
import UiTree.Xml.Doctype
import UiTree.Xml.Document
import UiTree.Xml.Encoding
import UiTree.Xml.Notice
import UiTree.Xml.Reference
import UiTree.Xml.Token
import UiTree.Xml.Tree
import UiTree.Xml.Uri
import UiTree.Proofs.Screen.Run
import UiTree.Proofs.Screen.Staleness
import UiTree.Proofs.Screen.Sending
import UiTree.Proofs.XPath.Ordered
import UiTree.Proofs.Query.Scope
import UiTree.Proofs.Xml.Scoping
import UiTree.Proofs.Views
import UiTree.Proofs.Query.Admitted
import UiTree.Proofs.Query.Unforgeable
import UiTree.Proofs.Service.Run
import UiTree.Proofs.Query.Version
import UiTree.Proofs.Service.Alike
import UiTree.Proofs.Service.History
import UiTree.Proofs.Selector.Leftmost
import UiTree.Proofs.Query.Resubmitted
import UiTree.Proofs.Service.Resubmitted
import UiTree.Proofs.Screen.Refresh
import UiTree.Proofs.Service.Unhandled
import UiTree.Proofs.Service.Crash
import UiTree.Proofs.Selector.Words
import UiTree.Proofs.Selector.Lenient
import UiTree.Proofs.Screen.TapText
import UiTree.Proofs.XPath.Token
import UiTree.Proofs.XPath.Lexing
import UiTree.Proofs.XPath.Twin
import UiTree.Proofs.XPath.Layout
import UiTree.Proofs.XPath.Grammar
import UiTree.Proofs.XPath.Wrapped
import UiTree.Proofs.Query.Layout
import UiTree.Proofs.Selector.Partition
import UiTree.Proofs.Navigation
import UiTree.Proofs.Rectangle
import UiTree.Proofs.Query.Quotation
import UiTree.Proofs.Traversal
