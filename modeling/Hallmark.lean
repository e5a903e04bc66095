import Hallmark.Action
import Hallmark.Audit.Event
import Hallmark.Blackboard.Attribute
import Hallmark.Blackboard.Basic
import Hallmark.Blackboard.Folder
import Hallmark.Blackboard.Index
import Hallmark.Content.Kind
import Hallmark.Content.Label
import Hallmark.Content.LineBreaks
import Hallmark.FileId
import Hallmark.Host.Buffer
import Hallmark.Host.Disk
import Hallmark.Host.File
import Hallmark.Host.Memory
import Hallmark.Host.Property
import Hallmark.Host.Session
import Hallmark.Host.Surroundings
import Hallmark.Identification
import Hallmark.Json.Basic
import Hallmark.Json.Printer
import Hallmark.Json.Reader
import Hallmark.Matcher.Basic
import Hallmark.Matcher.Script
import Hallmark.Matcher.Signature
import Hallmark.Module.Argument
import Hallmark.Module.Config
import Hallmark.Module.Error
import Hallmark.Module.FileType
import Hallmark.Module.Info
import Hallmark.Number.Digits
import Hallmark.Number.Literal
import Hallmark.Number.Word
import Hallmark.Pipeline.Basic
import Hallmark.Pipeline.Module
import Hallmark.Pipeline.Report
import Hallmark.Proofs.Forest.Lineage
import Hallmark.Proofs.Forest.Mapping
import Hallmark.Proofs.Forest.RightEdge
import Hallmark.Record.Field
import Hallmark.Record.Time
import Hallmark.Signature.Builtin
import Hallmark.Signature.Comparison
import Hallmark.Signature.Database
import Hallmark.Signature.Description
import Hallmark.Signature.Directive
import Hallmark.Signature.Entry
import Hallmark.Signature.EntryLine
import Hallmark.Signature.Error
import Hallmark.Signature.Escape
import Hallmark.Signature.Forest
import Hallmark.Signature.Message
import Hallmark.Signature.Pattern
import Hallmark.Signature.Probe
import Hallmark.Signature.Reader
import Hallmark.Signature.Reason
import Hallmark.Signature.Strength
import Hallmark.Signature.Token
import Hallmark.Status
import Hallmark.SystemError
import Hallmark.Table
import Hallmark.Text.Blank
import Hallmark.Text.Line
import Hallmark.Text.Quoted
import Hallmark.Text.Utf8
import Hallmark.Time.Date
import Hallmark.Time.Reader
import Hallmark.Time.Timestamp
import Hallmark.Volume.Basic
import Hallmark.Volume.Disk
import Hallmark.Volume.Path
import Hallmark.Proofs.Signature.LineNumber
import Hallmark.Proofs.Signature.Reading
import Hallmark.Proofs.Signature.Outline
import Hallmark.Proofs.Signature.Choice
import Hallmark.Proofs.Signature.Comparison
import Hallmark.Proofs.Number.Decimal
import Hallmark.Proofs.Number.Integer
import Hallmark.Proofs.Signature.Writing
import Hallmark.Proofs.Signature.RoundTrip
import Hallmark.Proofs.Module.Calls
import Hallmark.Proofs.Module.Run
import Hallmark.Proofs.Blackboard.Ledger
import Hallmark.Proofs.Blackboard.Recovery
import Hallmark.Proofs.Volume.Directory
import Hallmark.Proofs.Blackboard.Storage
import Hallmark.Proofs.Pipeline.Run
import Hallmark.Proofs.Module.LifeCycle
import Hallmark.Proofs.Signature.Annotation
import Hallmark.Proofs.Signature.Refusal
import Hallmark.Proofs.Number.Width
import Hallmark.Proofs.Signature.Soundness
import Hallmark.Proofs.Signature.Composition
import Hallmark.Proofs.Signature.Description
import Hallmark.Proofs.Module.Trail
import Hallmark.Proofs.Pipeline.LifeCycle
import Hallmark.Proofs.Blackboard.Precedence
import Hallmark.Proofs.Signature.Search
import Hallmark.Proofs.Signature.Pieces
import Hallmark.Proofs.Number.Checked
import Hallmark.Proofs.Signature.Bounds
import Hallmark.Proofs.Signature.Indexed
import Hallmark.Proofs.Content.Cleaning
import Hallmark.Proofs.Order
import Hallmark.Proofs.Signature.Rigid
import Hallmark.Proofs.Signature.Growth
import Hallmark.Proofs.Content.Classification
import Hallmark.Proofs.Content.Labelling
import Hallmark.Proofs.Content.Truncation
import Hallmark.Proofs.Signature.Template
import Hallmark.Proofs.Signature.Numeral
import Hallmark.Proofs.Signature.Printed
import Hallmark.Proofs.Signature.Extent
import Hallmark.Proofs.Signature.Strength
import Hallmark.Proofs.Number.Spelling
import Hallmark.Proofs.Signature.Places
import Hallmark.Proofs.Signature.StrengthDirective
import Hallmark.Proofs.Signature.Leading
import Hallmark.Proofs.Signature.Bundled
import Hallmark.Proofs.Signature.Spelling
import Hallmark.Proofs.Host.Reading
import Hallmark.Proofs.Module.Argument
import Hallmark.Proofs.Pipeline.Report
import Hallmark.Proofs.Signature.Token
import Hallmark.Proofs.Time.Date
