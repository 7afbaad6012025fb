import TaskTags.CommandLine.Console
import TaskTags.CommandLine.ExtraVariable
import TaskTags.CommandLine.Flag
import TaskTags.CommandLine.Inputs
import TaskTags.CommandLine.Invocation
import TaskTags.CommandLine.Run
import TaskTags.Decimal.Binary64
import TaskTags.Decimal.Digits
import TaskTags.Decimal.Reading
import TaskTags.Decimal.Shortest
import TaskTags.Decimal.Style
import TaskTags.Decimal.Words
import TaskTags.Diagnostics
import TaskTags.Diff.Compact
import TaskTags.Diff.Edit
import TaskTags.Diff.Hunk
import TaskTags.Diff.Myers
import TaskTags.Environment
import TaskTags.Error
import TaskTags.FileTree
import TaskTags.Json.Basic
import TaskTags.Json.Printer
import TaskTags.Json.Reader
import TaskTags.Json.Token
import TaskTags.Main
import TaskTags.Playbook.Basic
import TaskTags.Playbook.Collect
import TaskTags.Playbook.Listing
import TaskTags.Playbook.Load
import TaskTags.Playbook.Select
import TaskTags.Proofs.CommandLine.Assigned
import TaskTags.Proofs.CommandLine.Color
import TaskTags.Proofs.CommandLine.Console
import TaskTags.Proofs.CommandLine.DisplayedFilter
import TaskTags.Proofs.CommandLine.ExitStatus
import TaskTags.Proofs.CommandLine.FilterChange
import TaskTags.Proofs.CommandLine.ListedTags
import TaskTags.Proofs.CommandLine.Output
import TaskTags.Proofs.CommandLine.Readable
import TaskTags.Proofs.CommandLine.Reported
import TaskTags.Proofs.CommandLine.Settings
import TaskTags.Proofs.Decimal.Digits
import TaskTags.Proofs.Decimal.Reading
import TaskTags.Proofs.Diff.Compact
import TaskTags.Proofs.Diff.Context
import TaskTags.Proofs.Diff.Hunk
import TaskTags.Proofs.Diff.Midpoint
import TaskTags.Proofs.Diff.Patch
import TaskTags.Proofs.Diff.Reading
import TaskTags.Proofs.Diff.Script
import TaskTags.Proofs.Diff.Unified
import TaskTags.Proofs.Except
import TaskTags.Proofs.Json.Distinct
import TaskTags.Proofs.Json.Field
import TaskTags.Proofs.Json.Number
import TaskTags.Proofs.Json.ReadBack
import TaskTags.Proofs.Json.Token
import TaskTags.Proofs.Playbook.Collect
import TaskTags.Proofs.Playbook.Decision
import TaskTags.Proofs.Playbook.Deletion
import TaskTags.Proofs.Playbook.Grammar
import TaskTags.Proofs.Playbook.Leaf
import TaskTags.Proofs.Playbook.Order
import TaskTags.Proofs.Playbook.Outcome
import TaskTags.Proofs.Playbook.Painted
import TaskTags.Proofs.Playbook.PathSelection
import TaskTags.Proofs.Playbook.Place
import TaskTags.Proofs.Playbook.PlayTags
import TaskTags.Proofs.Playbook.Preserved
import TaskTags.Proofs.Playbook.Range
import TaskTags.Proofs.Playbook.Request
import TaskTags.Proofs.Playbook.Thin
import TaskTags.Proofs.Playbook.UnknownTags
import TaskTags.Proofs.Playbook.Walk
import TaskTags.Proofs.Report.DiffText
import TaskTags.Proofs.Report.Fields
import TaskTags.Proofs.Report.Hidden
import TaskTags.Proofs.Report.Recorded
import TaskTags.Proofs.Report.VisibleChange
import TaskTags.Proofs.Settings.Key
import TaskTags.Proofs.Settings.Precedence
import TaskTags.Proofs.Settings.VerbosityRange
import TaskTags.Proofs.Store.History
import TaskTags.Proofs.Store.InPlace
import TaskTags.Proofs.Store.Lookup
import TaskTags.Proofs.Store.Projections
import TaskTags.Proofs.Tag.Collector
import TaskTags.Proofs.Tag.Declaration
import TaskTags.Proofs.Tag.Display
import TaskTags.Proofs.Tag.Distribution
import TaskTags.Proofs.Tag.Expansion
import TaskTags.Proofs.Tag.Filter
import TaskTags.Proofs.Tag.Grouping
import TaskTags.Proofs.Tag.Loading
import TaskTags.Proofs.Tag.Plain
import TaskTags.Proofs.Tag.Range
import TaskTags.Proofs.Tag.Repetition
import TaskTags.Proofs.Tag.Resolution
import TaskTags.Proofs.Tag.Settle
import TaskTags.Proofs.Tag.SoleExpression
import TaskTags.Proofs.Template.Block
import TaskTags.Proofs.Template.Escape
import TaskTags.Proofs.Template.InStep
import TaskTags.Proofs.Template.Lockstep
import TaskTags.Proofs.Template.Scan
import TaskTags.Proofs.Template.SoleBlock
import TaskTags.Proofs.Text.Ansi
import TaskTags.Proofs.Text.Cut
import TaskTags.Proofs.Text.Pieces
import TaskTags.Proofs.Yaml.JsonKeys
import TaskTags.Report
import TaskTags.Report.DiffText
import TaskTags.Settings.Basic
import TaskTags.Settings.Document
import TaskTags.Settings.Load
import TaskTags.Settings.Log
import TaskTags.Store.Basic
import TaskTags.Store.Variable
import TaskTags.Tag.Basic
import TaskTags.Tag.Chain
import TaskTags.Tag.Collector
import TaskTags.Tag.Declaration
import TaskTags.Tag.Entry
import TaskTags.Tag.Filter
import TaskTags.Tag.Set
import TaskTags.Tag.Templater
import TaskTags.Template.Args
import TaskTags.Template.Escape
import TaskTags.Template.Eval
import TaskTags.Template.Fault
import TaskTags.Template.Filter
import TaskTags.Template.Grammar
import TaskTags.Template.Operator
import TaskTags.Template.Render
import TaskTags.Template.Scope
import TaskTags.Template.Test
import TaskTags.Template.Token
import TaskTags.Template.Tree
import TaskTags.Template.Value
import TaskTags.Text.Ansi
import TaskTags.Text.Blank
import TaskTags.Text.Case
import TaskTags.Text.Order
import TaskTags.Text.Printable
import TaskTags.Text.Quoted
import TaskTags.Toml.Basic
import TaskTags.Toml.Document
import TaskTags.Toml.Line
import TaskTags.Toml.Moment
import TaskTags.Toml.Scalar
import TaskTags.Toml.Text
import TaskTags.Yaml.Aliases
import TaskTags.Yaml.Cursor
import TaskTags.Yaml.Json
import TaskTags.Yaml.Node
import TaskTags.Yaml.Scalar
import TaskTags.Yaml.ScalarText
import TaskTags.Yaml.Token
import TaskTags.Yaml.Value
