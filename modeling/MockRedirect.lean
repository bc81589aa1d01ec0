import MockRedirect.Archive
import MockRedirect.Body.Edit
import MockRedirect.Body.InPlace
import MockRedirect.Body.Path
import MockRedirect.Body.Status
import MockRedirect.Command.Basic
import MockRedirect.Command.Error
import MockRedirect.Command.Line
import MockRedirect.Command.Listing
import MockRedirect.Command.Run
import MockRedirect.Decimal.Binary64
import MockRedirect.Decimal.Shortest
import MockRedirect.Decimal.Written
import MockRedirect.Endpoint
import MockRedirect.InputError
import MockRedirect.Json.Basic
import MockRedirect.Json.Decoder
import MockRedirect.Json.Document
import MockRedirect.Json.Fault
import MockRedirect.Json.Reader
import MockRedirect.Json.Shape
import MockRedirect.Json.ShapeReader
import MockRedirect.Json.Skip
import MockRedirect.Json.Writer
import MockRedirect.Main
import MockRedirect.Mock.Basic
import MockRedirect.Mock.Draft
import MockRedirect.Mock.Id
import MockRedirect.Model.Error
import MockRedirect.Model.Generator
import MockRedirect.Model.Language
import MockRedirect.Model.Prompt
import MockRedirect.Model.Pull
import MockRedirect.Model.Server
import MockRedirect.Model.Shared
import MockRedirect.Model.Task
import MockRedirect.Proofs.Address
import MockRedirect.Proofs.Advance
import MockRedirect.Proofs.Alike
import MockRedirect.Proofs.Annotated
import MockRedirect.Proofs.Answer
import MockRedirect.Proofs.Ascii
import MockRedirect.Proofs.Assignment
import MockRedirect.Proofs.Atomic
import MockRedirect.Proofs.Attach
import MockRedirect.Proofs.Bytewise
import MockRedirect.Proofs.Call
import MockRedirect.Proofs.Canonical
import MockRedirect.Proofs.Capacity
import MockRedirect.Proofs.Channel
import MockRedirect.Proofs.Comma
import MockRedirect.Proofs.Comment
import MockRedirect.Proofs.CommentSpan
import MockRedirect.Proofs.Commute
import MockRedirect.Proofs.Condense
import MockRedirect.Proofs.Console
import MockRedirect.Proofs.Cut
import MockRedirect.Proofs.DataDir
import MockRedirect.Proofs.DataUrl
import MockRedirect.Proofs.Destroy
import MockRedirect.Proofs.Distinct
import MockRedirect.Proofs.Document
import MockRedirect.Proofs.Edit
import MockRedirect.Proofs.Endpoint
import MockRedirect.Proofs.Evaluation
import MockRedirect.Proofs.ExactVerb
import MockRedirect.Proofs.Fence
import MockRedirect.Proofs.Field
import MockRedirect.Proofs.Filter
import MockRedirect.Proofs.Frame
import MockRedirect.Proofs.FreshId
import MockRedirect.Proofs.Gaps
import MockRedirect.Proofs.Generated
import MockRedirect.Proofs.IdText
import MockRedirect.Proofs.InFlight
import MockRedirect.Proofs.InPlace
import MockRedirect.Proofs.Intercept
import MockRedirect.Proofs.Lasting
import MockRedirect.Proofs.LeafOrder
import MockRedirect.Proofs.Leaves
import MockRedirect.Proofs.Margin
import MockRedirect.Proofs.Normal
import MockRedirect.Proofs.Number
import MockRedirect.Proofs.Offset
import MockRedirect.Proofs.PathGrammar
import MockRedirect.Proofs.PathText
import MockRedirect.Proofs.Pattern
import MockRedirect.Proofs.Pieces
import MockRedirect.Proofs.Place
import MockRedirect.Proofs.Plan
import MockRedirect.Proofs.PlanPrefix
import MockRedirect.Proofs.Preserve
import MockRedirect.Proofs.Probe
import MockRedirect.Proofs.Pull
import MockRedirect.Proofs.Query
import MockRedirect.Proofs.Quoted
import MockRedirect.Proofs.Race
import MockRedirect.Proofs.Reading
import MockRedirect.Proofs.Reconcile
import MockRedirect.Proofs.Record
import MockRedirect.Proofs.Recording
import MockRedirect.Proofs.Reopen
import MockRedirect.Proofs.Resolved
import MockRedirect.Proofs.Retyped
import MockRedirect.Proofs.RoundTrip
import MockRedirect.Proofs.RuleText
import MockRedirect.Proofs.SampleSchema
import MockRedirect.Proofs.Scanned
import MockRedirect.Proofs.Sessions
import MockRedirect.Proofs.Shape
import MockRedirect.Proofs.ShapeReader
import MockRedirect.Proofs.Shared
import MockRedirect.Proofs.Status
import MockRedirect.Proofs.Strip
import MockRedirect.Proofs.Table
import MockRedirect.Proofs.TableFile
import MockRedirect.Proofs.TemplateForm
import MockRedirect.Proofs.Token
import MockRedirect.Proofs.Transaction
import MockRedirect.Proofs.Tree
import MockRedirect.Proofs.Utf8
import MockRedirect.Proofs.Validity
import MockRedirect.Proofs.VerbChange
import MockRedirect.Proofs.VerbParts
import MockRedirect.Proofs.Watch
import MockRedirect.Rule.Basic
import MockRedirect.Rule.Error
import MockRedirect.Rule.Filter
import MockRedirect.Rule.Plan
import MockRedirect.Rule.Sync
import MockRedirect.Rule.Table
import MockRedirect.Rule.Watch
import MockRedirect.Schema
import MockRedirect.Store.Basic
import MockRedirect.Store.Call
import MockRedirect.Store.Channel
import MockRedirect.Store.Error
import MockRedirect.Store.Mocks
import MockRedirect.Store.Race
import MockRedirect.Store.Record
import MockRedirect.Template.Annotation
import MockRedirect.Template.Bytewise
import MockRedirect.Template.Clean
import MockRedirect.Template.Scan
import MockRedirect.Template.Style
import MockRedirect.Text.Blank
import MockRedirect.Text.Bounds
import MockRedirect.Text.Case
import MockRedirect.Text.CombiningClass
import MockRedirect.Text.Composition
import MockRedirect.Text.Direction
import MockRedirect.Text.Joining
import MockRedirect.Text.Mark
import MockRedirect.Text.Normal
import MockRedirect.Text.Offset
import MockRedirect.Text.Pattern
import MockRedirect.Text.Percent
import MockRedirect.Text.Pieces
import MockRedirect.Text.Quoted
import MockRedirect.Text.Unseen
import MockRedirect.Text.Utf8
import MockRedirect.Url.Address
import MockRedirect.Url.Domain
import MockRedirect.Url.Domain.Encoded
import MockRedirect.Url.Domain.Fold
import MockRedirect.Url.Domain.Joiner
import MockRedirect.Url.Domain.OneWay
import MockRedirect.Url.Domain.Refused
import MockRedirect.Url.Domain.Shift
import MockRedirect.Url.Domain.Spelling
import MockRedirect.Url.Fault
import MockRedirect.Url.Host
import MockRedirect.Verb
