import JsonnetLens.CommandLine.Grammar
import JsonnetLens.CommandLine.Program
import JsonnetLens.CommandLine.Recording
import JsonnetLens.CommandLine.Terminal
import JsonnetLens.CommandLine.Usage
import JsonnetLens.Compiler.Command
import JsonnetLens.Compiler.Run
import JsonnetLens.Diagnostic.Collection
import JsonnetLens.Diagnostic.CompilerError
import JsonnetLens.Diagnostic.Publisher
import JsonnetLens.Diagnostic.Record
import JsonnetLens.Diagnostic.Reporter
import JsonnetLens.Diagnostic.Sink
import JsonnetLens.EditorServer
import JsonnetLens.Emitter
import JsonnetLens.Fault
import JsonnetLens.Json.Basic
import JsonnetLens.Json.Display
import JsonnetLens.Json.Field
import JsonnetLens.Json.Nesting
import JsonnetLens.Json.Reader
import JsonnetLens.Json.Token
import JsonnetLens.Json.Writer
import JsonnetLens.Number.Binary64
import JsonnetLens.Number.FloatText
import JsonnetLens.Number.Shortest
import JsonnetLens.Path.Basic
import JsonnetLens.Preview.Cache
import JsonnetLens.Preview.Page
import JsonnetLens.Session
import JsonnetLens.Settings.Basic
import JsonnetLens.Settings.Config
import JsonnetLens.Settings.Environment
import JsonnetLens.Source.Frame
import JsonnetLens.Source.Span
import JsonnetLens.Table
import JsonnetLens.Text.Basic
import JsonnetLens.Text.Blank
import JsonnetLens.Text.CodePoint
import JsonnetLens.Text.Column
import JsonnetLens.Text.Digit
import JsonnetLens.Text.Entity
import JsonnetLens.Text.Hex
import JsonnetLens.Text.Pattern
import JsonnetLens.Text.Percent
import JsonnetLens.Text.Printable
import JsonnetLens.Text.Quoted
import JsonnetLens.Text.ShellWord
import JsonnetLens.Text.Utf8
import JsonnetLens.Uri.File
import JsonnetLens.Uri.Host
import JsonnetLens.Uri.Preview
import JsonnetLens.Uri.Split
import JsonnetLens.Workspace.Application
import JsonnetLens.Workspace.FileTree
import JsonnetLens.Yaml.Document
import JsonnetLens.Yaml.Kind
import JsonnetLens.Yaml.Scalar
import JsonnetLens.Main
import JsonnetLens.Proofs.Diagnostic.Report
import JsonnetLens.Proofs.Preview.Generate
import JsonnetLens.Proofs.Session.Run
import JsonnetLens.Proofs.Session.Consistency
import JsonnetLens.Proofs.Text.RoundTrip
import JsonnetLens.Proofs.Uri.File
import JsonnetLens.Proofs.Uri.Preview
import JsonnetLens.Proofs.Diagnostic.Lines
import JsonnetLens.Proofs.Compiler.Shell
import JsonnetLens.Proofs.Preview.Banner
import JsonnetLens.Proofs.Diagnostic.Batch
import JsonnetLens.Proofs.Diagnostic.Trace
import JsonnetLens.Proofs.Path.Text
import JsonnetLens.Proofs.Session.Rejection
import JsonnetLens.Proofs.Source.Limits
import JsonnetLens.Proofs.Diagnostic.Answers
import JsonnetLens.Proofs.Diagnostic.Ownership
import JsonnetLens.Proofs.Diagnostic.Client
import JsonnetLens.Proofs.Session.EventLoop
import JsonnetLens.Proofs.Session.Closing
import JsonnetLens.Proofs.Preview.Halves
import JsonnetLens.Proofs.Preview.Turns
import JsonnetLens.Proofs.Preview.Concurrency
import JsonnetLens.Proofs.Preview.History
import JsonnetLens.Proofs.Server.Events
import JsonnetLens.Proofs.Server.Configuration
import JsonnetLens.Proofs.CommandLine.Verdict
import JsonnetLens.Proofs.Diagnostic.Grouping
import JsonnetLens.Proofs.Source.Reading
import JsonnetLens.Proofs.Diagnostic.StaticError
import JsonnetLens.Proofs.Emitter.Subscription
import JsonnetLens.Proofs.Diagnostic.Listing
import JsonnetLens.Proofs.Json.RoundTrip
import JsonnetLens.Proofs.Preview.Format
import JsonnetLens.Proofs.Preview.Markup
import JsonnetLens.Proofs.Path.Normal
import JsonnetLens.Proofs.Workspace.Search
import JsonnetLens.Proofs.Diagnostic.Document
import JsonnetLens.Proofs.Workspace.Component
import JsonnetLens.Proofs.Compiler.Arguments
import JsonnetLens.Proofs.Preview.Answers
import JsonnetLens.Proofs.Preview.Spelling
import JsonnetLens.Proofs.Workspace.Layout
import JsonnetLens.Proofs.Settings.Overrides
import JsonnetLens.Proofs.Settings.Typed
import JsonnetLens.Proofs.Diagnostic.Changes
import JsonnetLens.Proofs.Settings.Fieldwise
import JsonnetLens.Proofs.Emitter.Notification
