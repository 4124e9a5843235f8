import PageObjects.Main
import PageObjects.Proofs.Command.Printed
import PageObjects.Proofs.Command.Written
import PageObjects.Proofs.Component.Exhaustive
import PageObjects.Proofs.Component.Soundness
import PageObjects.Proofs.Config.Overlay
import PageObjects.Proofs.Config.Stable
import PageObjects.Proofs.Locator.Canonical
import PageObjects.Proofs.Locator.CssReading
import PageObjects.Proofs.Locator.Fragility
import PageObjects.Proofs.Locator.Position
import PageObjects.Proofs.Locator.Proposal
import PageObjects.Proofs.Locator.Spelling
import PageObjects.Proofs.Locator.Suggestion
import PageObjects.Proofs.Locator.XPathReading
import PageObjects.Proofs.Method.Union
import PageObjects.Proofs.Name.Rereading
import PageObjects.Proofs.Page.Episode
import PageObjects.Proofs.Page.History
import PageObjects.Proofs.Page.Noter
import PageObjects.Proofs.Page.Placement
import PageObjects.Proofs.Page.TabMemory
import PageObjects.Proofs.Page.Waiting
import PageObjects.Proofs.Plain.Document
import PageObjects.Proofs.Report.Delegation
import PageObjects.Proofs.Report.Index
import PageObjects.Proofs.Report.Input
import PageObjects.Proofs.Report.MethodName
import PageObjects.Proofs.Report.MethodSize
import PageObjects.Proofs.Report.Returns
import PageObjects.Proofs.Report.Sequence
import PageObjects.Proofs.Report.Title
import PageObjects.Proofs.Report.Totality
import PageObjects.Proofs.Script.Balance
import PageObjects.Proofs.Script.Coverage
import PageObjects.Proofs.Script.Joining
import PageObjects.Proofs.Script.Layout
import PageObjects.Proofs.Script.LocatorVariable
import PageObjects.Proofs.Script.Matching
import PageObjects.Proofs.Script.NestedLiteral
import PageObjects.Proofs.Script.Nesting
import PageObjects.Proofs.Script.Rendering
import PageObjects.Proofs.Script.Splitting
import PageObjects.Proofs.Script.StringLiteral
import PageObjects.Proofs.Script.TestTitle
import PageObjects.Proofs.Url.Segments
