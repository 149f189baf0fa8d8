import SentinelSsh.Core.Proofs.SeenProofs
import SentinelSsh.Core.Proofs.ConcurrentProofs
import SentinelSsh.Core.Proofs.AssessmentProofs
import SentinelSsh.Core.Proofs.TokenProofs
import SentinelSsh.Core.Proofs.IsolationProofs
import SentinelSsh.Core.Proofs.OrderProofs
import SentinelSsh.Core.Proofs.BruteForceProofs
import SentinelSsh.Core.Proofs.ThreatFeedProofs
import SentinelSsh.Honeypot.Proofs.CaptureProofs
import SentinelSsh.Honeypot.Proofs.PipelineSinkProofs
import SentinelSsh.Honeypot.Proofs.CommandLimitProofs
import SentinelSsh.Honeypot.Proofs.FakeShellProofs
import SentinelSsh.Honeypot.Proofs.ShellRunProofs
import SentinelSsh.Honeypot.Proofs.LineProofs
import SentinelSsh.Honeypot.Proofs.AuthCallbackProofs
import SentinelSsh.Backend.Proofs.AuthProofs
import SentinelSsh.Backend.Proofs.ServiceProofs
import SentinelSsh.Backend.Proofs.ListingProofs
import SentinelSsh.Backend.Proofs.LiveProofs
import SentinelSsh.Frontend.Proofs.RenderingProofs
import SentinelSsh.Lib.Proofs.CounterProofs
import SentinelSsh.Backend.Proofs.StatsProofs
import SentinelSsh.Backend.Proofs.DisplayProofs
import SentinelSsh.Backend.Proofs.SearchProofs
import SentinelSsh.Backend.Proofs.RequestProofs
import SentinelSsh.Backend.Proofs.AccountProofs
import SentinelSsh.Backend.Proofs.ReportProofs
import SentinelSsh.Honeypot.Proofs.CaptureFileProofs
import SentinelSsh.Backend.Proofs.EventProofs
import SentinelSsh.Honeypot.Proofs.ScreenProofs
import SentinelSsh.Honeypot.Proofs.OverlapProofs
import SentinelSsh.Backend.Proofs.OverviewProofs
import SentinelSsh.Backend.Proofs.CsvExportProofs
import SentinelSsh.Frontend.Proofs.FeedProofs
import SentinelSsh.Backend.Proofs.SessionProofs
import SentinelSsh.Honeypot.Proofs.CompletionProofs
import SentinelSsh.Backend.Proofs.DemoDataProofs
import SentinelSsh.Frontend.Proofs.ShownProofs
