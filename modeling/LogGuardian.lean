import LogGuardian.Parser.SshdLines
import LogGuardian.Ban.Stores
import LogGuardian.Api.Consult
import LogGuardian.Ban.Whitelist
import LogGuardian.Fleet.Lifecycle
import LogGuardian.Fleet.Digest
import LogGuardian.Fleet.Keys
import LogGuardian.Queue.Work
import LogGuardian.Queue.Alerts
import LogGuardian.Ban.BootSync
import LogGuardian.Tenant.Policy
import LogGuardian.Follow.Follower
import LogGuardian.Daemon.Authority
import LogGuardian.Tls.Ja3
import LogGuardian.Schema.Soundness
import LogGuardian.Daemon.BanFile
import LogGuardian.Anomaly.Ddos
import LogGuardian.Xdp.Tarpit
import LogGuardian.Api.ConsultRate
import LogGuardian.Ban.Accounting
import LogGuardian.Ban.Policy
import LogGuardian.Api.Mutation
import LogGuardian.Rules.Whitelist
import LogGuardian.Rules.Bundle
import LogGuardian.Logger.Alerts
import LogGuardian.Fleet.Loopback
import LogGuardian.ThreatFeed.Source
import LogGuardian.ThreatFeed.Apply
import LogGuardian.Fleet.Replay
import LogGuardian.Fleet.Execute
import LogGuardian.Waf.PcreEngine
import LogGuardian.Dashboard.Password
import LogGuardian.IpMap.Recency
import LogGuardian.IpMap.Expiry
import LogGuardian.Anomaly.WindowReaders
import LogGuardian.Parser.CalendarRange
import LogGuardian.Firewall.CidrText
import LogGuardian.Firewall.Spelling
import LogGuardian.Xdp.TokenBucket
import LogGuardian.Waf.Padding
import LogGuardian.Waf.Full
import LogGuardian.Schema.PathTemplate
import LogGuardian.Anomaly.UrlDecode
import LogGuardian.AttackTree.Runs
import LogGuardian.Schema.RateLimit
import LogGuardian.Mesh.Base64
import LogGuardian.Logger.SiemQueue
import LogGuardian.Xdp.TarpitServer
