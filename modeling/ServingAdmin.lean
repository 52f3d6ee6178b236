import ServingAdmin.Autoscaling.Listing
import ServingAdmin.Autoscaling.Update
import ServingAdmin.Claim.Listing
import ServingAdmin.Claim.Name
import ServingAdmin.Domain.Listing
import ServingAdmin.Installation
import ServingAdmin.Registry.Listing
import ServingAdmin.Table.Sink
import ServingAdmin.Cluster.Encoding
import ServingAdmin.Cluster.Decoding
import ServingAdmin.Autoscaling.Command
import ServingAdmin.Domain.Command
import ServingAdmin.Claim.Command
import ServingAdmin.Registry.Command
import ServingAdmin.CommandLine.Reader
import ServingAdmin.Run
import ServingAdmin.Autoscaling.Session
import ServingAdmin.Claim.Definition
import ServingAdmin.Main
import ServingAdmin.Listed
import ServingAdmin.Proofs.Script.Effect
import ServingAdmin.Proofs.Script.Safety
import ServingAdmin.Proofs.Cluster.PlainPath
import ServingAdmin.Proofs.Cluster.Requests
import ServingAdmin.Proofs.Cluster.Interface
import ServingAdmin.Proofs.Cluster.Versioned
import ServingAdmin.Proofs.Autoscaling.Override
import ServingAdmin.Proofs.Cluster.Exchange
import ServingAdmin.Proofs.Autoscaling.UpdateEffect
import ServingAdmin.Proofs.Run.Effect
import ServingAdmin.Proofs.Autoscaling.AllOrNothing
import ServingAdmin.Proofs.Run.History
import ServingAdmin.Proofs.Run.Frame
import ServingAdmin.Proofs.Autoscaling.Interleaving
import ServingAdmin.Proofs.Autoscaling.Stage
import ServingAdmin.Proofs.Autoscaling.NoLostUpdate
import ServingAdmin.Proofs.Duration.Grammar
import ServingAdmin.Proofs.Duration.Reader
import ServingAdmin.Proofs.Text.Digits
import ServingAdmin.Proofs.Duration.Canonical
import ServingAdmin.Proofs.Duration.RoundTrip
import ServingAdmin.Proofs.Binary64.Nearest
import ServingAdmin.Proofs.Binary64.Numeral
import ServingAdmin.Proofs.Duration.Seconds
import ServingAdmin.Proofs.Text.Blank
import ServingAdmin.Proofs.Autoscaling.Trimming
import ServingAdmin.Proofs.Autoscaling.Accepted
import ServingAdmin.Proofs.Autoscaling.SettingsRead
import ServingAdmin.Proofs.Autoscaling.StoredPeriod
import ServingAdmin.Proofs.Autoscaling.ReadBack
import ServingAdmin.Proofs.Autoscaling.SessionHistory
import ServingAdmin.Proofs.CommandLine.Members
import ServingAdmin.Proofs.CommandLine.Spelling
import ServingAdmin.Proofs.CommandLine.Hyphens
import ServingAdmin.Proofs.Autoscaling.UpdateLine
import ServingAdmin.Proofs.Autoscaling.SeparateValue
import ServingAdmin.Proofs.Registry.Selection
import ServingAdmin.Proofs.Registry.Passwords
import ServingAdmin.Proofs.Script.Output
import ServingAdmin.Proofs.Cluster.Listing
import ServingAdmin.Proofs.Registry.ListCommand
import ServingAdmin.Proofs.KeyMap
import ServingAdmin.Proofs.Text.Split
import ServingAdmin.Proofs.Text.Octets
import ServingAdmin.Proofs.Json.WrittenText
import ServingAdmin.Proofs.Json.WrittenValues
import ServingAdmin.Proofs.Registry.RoundTrip
import ServingAdmin.Proofs.Registry.Rows
import ServingAdmin.Proofs.Cluster.Claims
import ServingAdmin.Proofs.Claim.Name
import ServingAdmin.Proofs.Claim.Lines
import ServingAdmin.Proofs.Claim.History
import ServingAdmin.Proofs.Claim.Deletion
import ServingAdmin.Proofs.Autoscaling.Verdict
import ServingAdmin.Proofs.Duration.Fraction
import ServingAdmin.Proofs.Autoscaling.EffectiveValues
import ServingAdmin.Proofs.Duration.Brief
import ServingAdmin.Proofs.Claim.Pattern
import ServingAdmin.Proofs.Autoscaling.StableWindow
import ServingAdmin.Proofs.Binary64.Rounding
import ServingAdmin.Proofs.Binary64.Value
import ServingAdmin.Proofs.Autoscaling.BurstCapacity
import ServingAdmin.Proofs.Text.Separator
import ServingAdmin.Proofs.Text.Lines
import ServingAdmin.Proofs.Domain.Entries
import ServingAdmin.Proofs.Domain.SkippedLines
import ServingAdmin.Proofs.Table.Widths
import ServingAdmin.Proofs.Table.Printing
import ServingAdmin.Proofs.Table.Layout
import ServingAdmin.Proofs.Table.ReadBack
import ServingAdmin.Proofs.Table.Capacity
import ServingAdmin.Proofs.Table.Newlines
import ServingAdmin.Proofs.Registry.EntryLines
import ServingAdmin.Proofs.Json.Grammar
import ServingAdmin.Proofs.Json.Skipping
import ServingAdmin.Proofs.Json.StringsRead
import ServingAdmin.Proofs.Json.ValuesRead
import ServingAdmin.Proofs.Json.RecordsRead
import ServingAdmin.Proofs.Registry.UnknownMembers
