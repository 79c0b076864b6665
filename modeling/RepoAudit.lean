import RepoAudit.Bytes.Base64
import RepoAudit.Bytes.Percent
import RepoAudit.Bytes.Utf8
import RepoAudit.Clock
import RepoAudit.CommandLine.Basic
import RepoAudit.CommandLine.Invocation
import RepoAudit.CommandLine.Usage
import RepoAudit.Disk.Basic
import RepoAudit.Disk.Path
import RepoAudit.Finding.Basic
import RepoAudit.Finding.Distinct
import RepoAudit.Host.Basic
import RepoAudit.Host.Client
import RepoAudit.Host.Reference
import RepoAudit.Host.Request
import RepoAudit.Json.Basic
import RepoAudit.Json.Reader
import RepoAudit.Json.Writer
import RepoAudit.Log
import RepoAudit.Main
import RepoAudit.Manifest
import RepoAudit.Number.Amount
import RepoAudit.Number.Double
import RepoAudit.Number.Reading
import RepoAudit.Number.Shortest
import RepoAudit.Pattern.Basic
import RepoAudit.Pattern.Class
import RepoAudit.Pattern.Problem
import RepoAudit.Pattern.Reader
import RepoAudit.Pattern.Token
import RepoAudit.Plan
import RepoAudit.Report.Basic
import RepoAudit.Report.Group
import RepoAudit.Report.Markdown
import RepoAudit.Rule.Basic
import RepoAudit.Rule.Catalog
import RepoAudit.Rule.Discovery
import RepoAudit.Rule.Engine
import RepoAudit.Rule.Excerpt
import RepoAudit.Rule.Family
import RepoAudit.Rule.Ruleset
import RepoAudit.Scan.Assembly
import RepoAudit.Scan.Executor
import RepoAudit.Scan.Program
import RepoAudit.Scan.Run
import RepoAudit.Scan.Scanner
import RepoAudit.Scan.Start
import RepoAudit.ScanLog
import RepoAudit.Score
import RepoAudit.Service.Basic
import RepoAudit.Service.Form
import RepoAudit.Service.Resource
import RepoAudit.Service.Target
import RepoAudit.Service.View
import RepoAudit.Settings.Basic
import RepoAudit.Settings.Reader
import RepoAudit.Store.Basic
import RepoAudit.Store.Ledger
import RepoAudit.Store.Order
import RepoAudit.Store.Record
import RepoAudit.Store.Shape
import RepoAudit.Summary
import RepoAudit.Text.Basic
import RepoAudit.Text.Case
import RepoAudit.Text.CaseTable
import RepoAudit.Text.Digit
import RepoAudit.Text.Name
import RepoAudit.Text.Printable
import RepoAudit.Text.Quoted
import RepoAudit.Text.Table
import RepoAudit.Text.Word
import RepoAudit.Tree.Basic
import RepoAudit.Tree.Inspection
import RepoAudit.Yaml.Cursor
import RepoAudit.Yaml.Document
import RepoAudit.Yaml.Fault
import RepoAudit.Yaml.Meaning
import RepoAudit.Yaml.Node
import RepoAudit.Yaml.Scalar
import RepoAudit.Yaml.Tag
import RepoAudit.Yaml.Token
import RepoAudit.Yaml.Value
import RepoAudit.Proofs.Disk.Making
import RepoAudit.Proofs.Store.Effect
import RepoAudit.Proofs.Store.Operation
import RepoAudit.Proofs.Store.Restored
import RepoAudit.Proofs.Store.Writing
import RepoAudit.Proofs.Rule.Evidence
import RepoAudit.Proofs.Scan.Calls
import RepoAudit.Proofs.Scan.Conduct
import RepoAudit.Proofs.Scan.Contract
import RepoAudit.Proofs.Scan.Effect
import RepoAudit.Proofs.Scan.Faltering
import RepoAudit.Proofs.Scan.Opening
import RepoAudit.Proofs.Scan.Rescan
import RepoAudit.Proofs.Scan.Tenure
import RepoAudit.Proofs.Score
import RepoAudit.Proofs.Traffic.Acceptance
import RepoAudit.Proofs.Traffic.Arrangement
import RepoAudit.Proofs.Traffic.Basic
import RepoAudit.Proofs.Traffic.Completion
import RepoAudit.Proofs.Traffic.Errand
import RepoAudit.Proofs.Traffic.History
import RepoAudit.Proofs.Traffic.Interval
import RepoAudit.Proofs.Traffic.Outcome
import RepoAudit.Proofs.Traffic.Reopening
import RepoAudit.Proofs.Traffic.Survival
import RepoAudit.Proofs.Traffic.Use
import RepoAudit.Proofs.Store.Crash
import RepoAudit.Proofs.Store.Failure
import RepoAudit.Proofs.Store.Recovery
import RepoAudit.Proofs.Clock
import RepoAudit.Proofs.Store.Creation
import RepoAudit.Proofs.Scan.Timeless
import RepoAudit.Proofs.Traffic.Reach
import RepoAudit.Proofs.Traffic.Interference
import RepoAudit.Proofs.Scan.Unmarked
import RepoAudit.Proofs.Scan.Account
import RepoAudit.Proofs.Scan.Pool
import RepoAudit.Proofs.Number.Canonical
import RepoAudit.Proofs.Number.Shortest
import RepoAudit.Proofs.Json.Numeral
import RepoAudit.Proofs.Json.Legible
import RepoAudit.Proofs.Store.Decoded
import RepoAudit.Proofs.Store.Opening
import RepoAudit.Proofs.Host.Failure
import RepoAudit.Proofs.Rule.Title
import RepoAudit.Proofs.Scan.Distinct
import RepoAudit.Proofs.Scan.Refusal
import RepoAudit.Proofs.Scan.Results
import RepoAudit.Proofs.Traffic.Listing
import RepoAudit.Proofs.Settings.Limits
import RepoAudit.Proofs.Settings.Outcome
import RepoAudit.Proofs.Rule.Redaction
import RepoAudit.Proofs.Scan.Tolerance
import RepoAudit.Proofs.Scan.Detection
import RepoAudit.Proofs.Store.Records
import RepoAudit.Proofs.Service.Answer
import RepoAudit.Proofs.Traffic.Lineage
import RepoAudit.Proofs.Traffic.Upkeep
import RepoAudit.Proofs.Rule.Evaluation
import RepoAudit.Proofs.Rule.Firing
import RepoAudit.Proofs.Rule.Progress
import RepoAudit.Proofs.Rule.Location
import RepoAudit.Proofs.Rule.Disabled
import RepoAudit.Proofs.Number.Order
import RepoAudit.Proofs.Score.Deletion
import RepoAudit.Proofs.Finding.Distinct
import RepoAudit.Proofs.Host.ReferencePattern
import RepoAudit.Proofs.Host.Address
import RepoAudit.Proofs.Host.Content
import RepoAudit.Proofs.Tree.Depth
import RepoAudit.Proofs.Manifest
import RepoAudit.Proofs.Rule.Selection
import RepoAudit.Proofs.Rule.Discovery
import RepoAudit.Proofs.Report
import RepoAudit.Proofs.SharedLog
import RepoAudit.Proofs.Traffic.Waiting
import RepoAudit.Proofs.Store.Amendment
