import MetricGateway.Main
import MetricGateway.Target.Credentials
import MetricGateway.Proofs.SingleFlight.Order
import MetricGateway.Proofs.SingleFlight.Decompose
import MetricGateway.Proofs.SingleFlight.Exclusion
import MetricGateway.Proofs.SingleFlight.Frame
import MetricGateway.Proofs.SingleFlight.Held
import MetricGateway.Proofs.SingleFlight.SharedOutcome
import MetricGateway.Proofs.SingleFlight.Content
import MetricGateway.Proofs.SingleFlight.Calls
import MetricGateway.Proofs.SingleFlight.Faithful
import MetricGateway.Proofs.Metrics.Additional
import MetricGateway.Proofs.SingleFlight.Invalidation
import MetricGateway.Proofs.SingleFlight.LastingPut
import MetricGateway.Proofs.SingleFlight.LoadInPlace
import MetricGateway.Proofs.Exposition.Escaping
import MetricGateway.Proofs.Number.Token
import MetricGateway.Proofs.Exposition.WrittenLines
import MetricGateway.Proofs.Exposition.Lines
import MetricGateway.Proofs.Exposition.Collected
import MetricGateway.Proofs.Exposition.Series
import MetricGateway.Proofs.Exposition.ReadBack
import MetricGateway.Proofs.Exposition.Grouping
import MetricGateway.Proofs.Metrics.Failures
import MetricGateway.Proofs.Metrics.Indicator
import MetricGateway.Proofs.Metrics.Marked
import MetricGateway.Proofs.Metrics.Vectors
import MetricGateway.Proofs.Round.Accounting
import MetricGateway.Proofs.Round.Attribution
import MetricGateway.Proofs.Round.Stages
import MetricGateway.Proofs.Round.Bounds
import MetricGateway.Proofs.Service.AtWork
import MetricGateway.Proofs.Service.Endpoints
import MetricGateway.Proofs.Service.Visibility
import MetricGateway.Proofs.Service.Body
import MetricGateway.Proofs.Service.Declarations
import MetricGateway.Proofs.Service.Repeats
import MetricGateway.Proofs.Exposition.Account
import MetricGateway.Proofs.Exposition.EndMark
import MetricGateway.Proofs.Metrics.Retention
import MetricGateway.Proofs.SingleFlight.Due
import MetricGateway.Proofs.SingleFlight.Refresh
import MetricGateway.Proofs.SingleFlight.Removal
import MetricGateway.Proofs.SingleFlight.Provenance
import MetricGateway.Proofs.SingleFlight.Progress
import MetricGateway.Proofs.SingleFlight.ReportedSize
import MetricGateway.Proofs.SingleFlight.Residue
import MetricGateway.Proofs.SingleFlight.LeftBehind
import MetricGateway.Proofs.SingleFlight.Mirror
import MetricGateway.Proofs.SingleFlight.KeysApart
import MetricGateway.Proofs.Number.Rounding
import MetricGateway.Proofs.Metrics.Points
import MetricGateway.Proofs.Metrics.History
import MetricGateway.Proofs.Metrics.Counts
import MetricGateway.Proofs.SingleFlight.Alone
import MetricGateway.Proofs.SingleFlight.Rest
import MetricGateway.Proofs.SingleFlight.Asked
import MetricGateway.Proofs.Text.Percent
import MetricGateway.Proofs.Service.Routing
import MetricGateway.Proofs.Service.Discovered
import MetricGateway.Proofs.Service.Advertised
import MetricGateway.Proofs.Exposition.StandsIn
import MetricGateway.Proofs.Round.Promptly
import MetricGateway.Proofs.Service.PassThrough
import MetricGateway.Proofs.SingleFlight.Values
import MetricGateway.Proofs.SingleFlight.ValuesInTime
import MetricGateway.Proofs.Service.Bare
import MetricGateway.Proofs.Service.Blind
import MetricGateway.Proofs.Service.Created
import MetricGateway.Proofs.Service.Confined
import MetricGateway.Proofs.Exposition.Quoted
import MetricGateway.Proofs.Exposition.Spelling
import MetricGateway.Proofs.Exposition.Accepted
import MetricGateway.Proofs.Exposition.KeptLines
import MetricGateway.Proofs.Aggregate.FirstType
import MetricGateway.Proofs.Settings.Consistency
import MetricGateway.Proofs.Labelling.Distinct
import MetricGateway.Proofs.SingleFlight.LoneSweep
import MetricGateway.Proofs.Service.Listed
