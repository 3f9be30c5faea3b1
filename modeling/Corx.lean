import Corx.Base.ArrivalMeter
import Corx.Base.BodyStream
import Corx.Base.CappedMap
import Corx.Base.CorsProtocol
import Corx.Base.IpAddr
import Corx.Base.Layers
import Corx.Base.ListHeader
import Corx.Base.MultiMap
import Corx.Base.ParameterList
import Corx.Base.PercentCoding
import Corx.Base.Run
import Corx.Base.SharedCache
import Corx.Base.SlidingWindow
import Corx.Base.SnapshotReads
import Corx.Base.Text
import Corx.Base.Unwinding
import Corx.Base.UriReference
import Corx.Config
import Corx.Config.Validate
import Corx.Error
import Corx.Http
import Corx.Policy.CircuitRuns
import Corx.Policy.Cooldown
import Corx.Policy.Eviction
import Corx.Policy.FailureWindow
import Corx.Policy.HostLabels
import Corx.Policy.HostNames
import Corx.Policy.ProbeBudget
import Corx.Policy.ProbeBurst
import Corx.Policy.Refusals
import Corx.Policy.Target
import Corx.Proxy.AddressForms
import Corx.Proxy.BlockList
import Corx.Proxy.BreakerNames
import Corx.Proxy.ConnectionOptions
import Corx.Proxy.Cors
import Corx.Proxy.CorsCredentials
import Corx.Proxy.CorsStamping
import Corx.Proxy.Downgrade
import Corx.Proxy.Executions
import Corx.Proxy.Forwarded
import Corx.Proxy.Headers
import Corx.Proxy.HopAdmission
import Corx.Proxy.ListHeaders
import Corx.Proxy.LocationResolution
import Corx.Proxy.LoopRuns
import Corx.Proxy.PathAuthority
import Corx.Proxy.PreflightLists
import Corx.Proxy.RedirectChain
import Corx.Proxy.Replays
import Corx.Proxy.Resolving
import Corx.Proxy.SchemelessForm
import Corx.Proxy.Settlements
import Corx.Proxy.Ssrf
import Corx.Proxy.UrlParser
import Corx.Server.Answers
import Corx.Server.Auth
import Corx.Server.Authentication
import Corx.Server.Browser
import Corx.Server.BucketIsolation
import Corx.Server.Buckets
import Corx.Server.CallsAcrossReloads
import Corx.Server.Capacity
import Corx.Server.ChainHeaders
import Corx.Server.ClientForms
import Corx.Server.CompiledLimits
import Corx.Server.ConfigLoader
import Corx.Server.CooldownReloads
import Corx.Server.CorsIsolation
import Corx.Server.Credential
import Corx.Server.Dialing
import Corx.Server.Discarded
import Corx.Server.Drain
import Corx.Server.ErrorResponse
import Corx.Server.ForgedHeaders
import Corx.Server.ForwardedValue
import Corx.Server.Freshness
import Corx.Server.Handler
import Corx.Server.KeyRegistry
import Corx.Server.LoadShed
import Corx.Server.LocationForms
import Corx.Server.Mediation
import Corx.Server.Metering
import Corx.Server.OneAuthority
import Corx.Server.Ops
import Corx.Server.Outbound
import Corx.Server.PreflightGuard
import Corx.Server.QueryRoute
import Corx.Server.RateBudgets
import Corx.Server.RateLimit
import Corx.Server.RateRejections
import Corx.Server.RateWindows
import Corx.Server.Reload
import Corx.Server.ReloadRuns
import Corx.Server.RequestBody
import Corx.Server.ResponseCap
import Corx.Server.Router
import Corx.Server.Service
import Corx.Server.SharedCaching
import Corx.Server.Snapshots
import Corx.Server.Startup
import Corx.Server.State
import Corx.Server.Transfers
import Corx.Server.UnreadConfig
