import PimDiscovery.Crates
import PimDiscovery.Autoconfig.Config
import PimDiscovery.Pacc.Config
import PimDiscovery.Compose.Config
import PimDiscovery.Grouping.FirstFit
import PimDiscovery.Compose.Endpoint
import PimDiscovery.Compose.SrvReport
import PimDiscovery.PlainUrl
import PimDiscovery.Compose.Collect
import PimDiscovery.Compose.Merged
import PimDiscovery.Compose.Refined
import PimDiscovery.Compose.Flattened
import PimDiscovery.Interaction.Program
import PimDiscovery.Interaction.Coroutine
import PimDiscovery.Interaction.Runs
import PimDiscovery.Shared.Exchange
import PimDiscovery.Shared.Framing
import PimDiscovery.Shared.Dns
import PimDiscovery.Shared.Http
import PimDiscovery.Shared.Walk
import PimDiscovery.Shared.Chain
import PimDiscovery.Rfc6186.Srv
import PimDiscovery.Rfc6186.Discover
import PimDiscovery.Rfc6764.Candidate
import PimDiscovery.Rfc6764.TxtPath
import PimDiscovery.Rfc6764.Resolve
import PimDiscovery.Rfc6764.FirstCandidate
import PimDiscovery.Rfc6764.Unrelated
import PimDiscovery.Rfc6764.TxtOrigin
import PimDiscovery.Rfc6764.Rooted
import PimDiscovery.PlainNet
import PimDiscovery.Documents
import PimDiscovery.Rfc8620.WellKnown
import PimDiscovery.Rfc8620.Resolve
import PimDiscovery.Pacc.Discover
import PimDiscovery.Pacc.Vouched
import PimDiscovery.Shared.Probe
import PimDiscovery.Autoconfig.Isp
import PimDiscovery.Autoconfig.Lookups
import PimDiscovery.Chains.Orbit
import PimDiscovery.Autoconfig.Aliases
import PimDiscovery.Oauth
import PimDiscovery.Interaction.Environment
import PimDiscovery.Interaction.Pump
import PimDiscovery.Shared.Pool
import PimDiscovery.Compose.Providers
import PimDiscovery.Compose.Job
import PimDiscovery.Compose.Mechanisms
import PimDiscovery.Compose.Client
import PimDiscovery.Compose.Passes
import PimDiscovery.Compose.Runners
import PimDiscovery.Compose.Restricted
import PimDiscovery.Compose.First
import PimDiscovery.Compose.OauthPass
import PimDiscovery.Compose.Traced
import PimDiscovery.Compose.Metadata
import PimDiscovery.Compose.Resolved
import PimDiscovery.Compose.Distinct
import PimDiscovery.Compose.Guarded
import PimDiscovery.Compose.Supervised
import PimDiscovery.Compose.Encrypted
import PimDiscovery.Compose.Streams
import PimDiscovery.Compose.Jobs
import PimDiscovery.Compose.Deliveries
import PimDiscovery.Compose.Threads
import PimDiscovery.Compose.Within
import PimDiscovery.Compose.Roots
import PimDiscovery.Compose.Bounded
import PimDiscovery.Cli.Domain
import PimDiscovery.Coroutines.Live
import PimDiscovery.Coroutines.Effort
import PimDiscovery.Serde.Json
import PimDiscovery.Autoconfig.Json
import PimDiscovery.Compose.Json
import PimDiscovery.Compose.MxAutoconfig
import PimDiscovery.Compose.Challenged
import PimDiscovery.Shared.Reuse
import PimDiscovery.Compose.Attributed
import PimDiscovery.Provenance.Replace
import PimDiscovery.Compose.Substituted
import PimDiscovery.Whatwg.Urlencoded
import PimDiscovery.Autoconfig.Addressed
import PimDiscovery.Interaction.Machine
import PimDiscovery.Compose.Machines
import PimDiscovery.Coroutines.Requested
import PimDiscovery.Coroutines.Ended
import PimDiscovery.Interaction.Strict
import PimDiscovery.Shared.Sessions
import PimDiscovery.Interaction.Answers
import PimDiscovery.Coroutines.Respected
import PimDiscovery.Coroutines.Reordered
import PimDiscovery.Coroutines.Transport
import PimDiscovery.Coroutines.OverTcp
import PimDiscovery.Interaction.Paired
import PimDiscovery.Compose.Mailbox
import PimDiscovery.Interaction.Cost
import PimDiscovery.Compose.Costs
import PimDiscovery.Compose.Budget
import PimDiscovery.Compose.Agreed
import PimDiscovery.Compose.Summed
import PimDiscovery.Cli.Commands
import PimDiscovery.Cli.All
import PimDiscovery.Serde.Members
import PimDiscovery.Serde.Redraft
import PimDiscovery.Oauth.Json
import PimDiscovery.Pacc.Json
import PimDiscovery.Coroutines.Redrafted
import PimDiscovery.Compose.Redrafted
import PimDiscovery.Coroutines.Published
