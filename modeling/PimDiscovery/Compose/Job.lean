import PimDiscovery.Autoconfig.Isp
import PimDiscovery.Autoconfig.Lookups
import PimDiscovery.Oauth
import PimDiscovery.Pacc.Discover
import PimDiscovery.Rfc6186.Discover
import PimDiscovery.Rfc6764.Resolve
import PimDiscovery.Rfc8620.Resolve
import PimDiscovery.Shared.Pool
import PimDiscovery.Shared.Probe

/-! The compose client, and the coroutines it runs: each is pumped through a pool of its own. -/

namespace PimDiscovery
open Interaction

/-- The client, less its TLS configuration, which only the `https` factory reads. -/
structure DiscoveryComposeClientStd where
  dns : Url
  secureOnly : Bool
  deriving DecidableEq, Repr

namespace DiscoveryComposeClientStd

def new (dns : Url) : DiscoveryComposeClientStd := { dns, secureOnly := false }

def withSecureOnly (self : DiscoveryComposeClientStd) (secureOnly : Bool) :
    DiscoveryComposeClientStd :=
  { self with secureOnly }

def pool (self : DiscoveryComposeClientStd) : DiscoveryStreamPool :=
  let pool := DiscoveryStreamPool.new.withHttpFactories
  if self.secureOnly then pool.withoutFactory "http" else pool

theorem pool_holds (self : DiscoveryComposeClientStd) :
    DiscoveryStreamPool.Holds self.pool.factories self.pool := by
  refine ⟨rfl, ?_⟩
  unfold pool
  split <;> exact List.forall_mem_nil _

theorem pool_secure {self : DiscoveryComposeClientStd} (h : self.secureOnly = true) :
    self.pool.factories = ["https", "tcp"] := by
  simp only [pool, h, if_true]
  rfl

end DiscoveryComposeClientStd

inductive Job where
  | check (domain : String)
  | mx (domain : String)
  | pacc (domain : String)
  | isp (url : Url)
  | mailconf (domain : String)
  | cname (host : String)
  | srv (domain : String)
  | dav (domain : String) (service : DiscoveryDavService)
  | jmap (domain : String)
  | wellKnown (origin : Url) (service : DiscoveryDavService)
  | auth (url : Url)
  | oauthServer (url : Url)
  | oauthResource (url : Url)
  deriving DecidableEq

@[reducible] def Job.Answer : Job → Type
  | check _ => DnsProbeResult
  | mx _ => Except DnsLookupError (List Mx)
  | pacc _ => PaccResult
  | isp _ => IspResult
  | mailconf _ => MailconfResult
  | cname _ => Except DnsLookupError (Option String)
  | srv _ => Except (String × DnsLookupError) DiscoverySrvReport
  | dav _ _ => DavResolveResult
  | jmap _ => JmapResolveResult
  | wellKnown _ _ => CandidateResult
  | auth _ => ProbeAuthResult
  | oauthServer _ => Except OauthResolveError DiscoveryOauthServerMetadata
  | oauthResource _ => Except OauthResolveError DiscoveryOauthResourceMetadata

section
variable [UrlCrate] [DomainCrate] [IoHttpCrate] [SerdeCrate] [DigestCrate]

def Job.program (client : DiscoveryComposeClientStd) : (job : Job) → Protocol job.Answer
  | check domain => DiscoveryDnsProbe.program domain client.dns
  | mx domain => DiscoveryDnsMx.program domain client.dns
  | pacc domain =>
    match DiscoveryPacc.url domain with
    | .ok url => DiscoveryPacc.program url domain client.dns
    | .error err => .pure (.error err)
  | isp url => DiscoveryIsp.program url
  | mailconf domain => DiscoveryMailconf.program domain client.dns
  | cname host => DiscoveryDnsCname.program host client.dns
  | srv domain => DiscoverySrv.program domain client.dns
  | dav domain service => DiscoveryDavResolve.program domain service client.dns client.secureOnly
  | jmap domain => DiscoveryJmapResolve.program domain client.dns
  | wellKnown origin service => DiscoveryWellKnown.program origin service
  | auth url => DiscoveryProbeAuth.program url
  | oauthServer url => DiscoveryOauthServerResolve.program url
  | oauthResource url => DiscoveryOauthResourceResolve.program url

/-- The deliveries and the end of the run of a job over a fresh pool, its I/O going as in `script`.
A `run_pacc` whose URL is invalid runs nothing. -/
def Job.run (client : DiscoveryComposeClientStd) (job : Job) (script : List StreamIo) :
    List Delivery × Option job.Answer :=
  let ended {σ ρ : Type} (resume : σ → Option Bytes → Step DiscoveryYield σ ρ) (coroutine : σ) :=
    let pumped := PimDiscovery.run resume client.pool coroutine script
    (pumped.events, pumped.result)
  match job with
  | check domain => ended DiscoveryDnsProbe.resume (DiscoveryDnsProbe.new domain client.dns)
  | mx domain => ended DiscoveryDnsMx.resume (DiscoveryDnsMx.new domain client.dns)
  | pacc domain =>
    match DiscoveryPacc.new domain client.dns with
    | .ok coroutine => ended DiscoveryPacc.resume coroutine
    | .error err => ([], some (.error err))
  | isp url => ended DiscoveryIsp.resume (DiscoveryIsp.new url)
  | mailconf domain => ended DiscoveryMailconf.resume (DiscoveryMailconf.new domain client.dns)
  | cname host => ended DiscoveryDnsCname.resume (DiscoveryDnsCname.new host client.dns)
  | srv domain => ended DiscoverySrv.resume (DiscoverySrv.new domain client.dns)
  | dav domain service =>
    ended DiscoveryDavResolve.resume
      ((DiscoveryDavResolve.new domain service client.dns).withSecureOnly client.secureOnly)
  | jmap domain => ended DiscoveryJmapResolve.resume (DiscoveryJmapResolve.new domain client.dns)
  | wellKnown origin service =>
    ended DiscoveryWellKnown.resume (DiscoveryWellKnown.new origin service)
  | auth url => ended DiscoveryProbeAuth.resume (DiscoveryProbeAuth.new url)
  | oauthServer url =>
    ended DiscoveryOauthServerResolve.resume (DiscoveryOauthServerResolve.new url)
  | oauthResource url =>
    ended DiscoveryOauthResourceResolve.resume (DiscoveryOauthResourceResolve.new url)

def DiscoveryComposeClientStd.ExchangeExec (client : DiscoveryComposeClientStd) (q : Exchange)
    (ds : List Delivery) (r : Option q.Answer) : Prop :=
  LeafExec exchanges runYield (DiscoveryStreamPool.Holds client.pool.factories) q ds r

omit [UrlCrate] [SerdeCrate] [DigestCrate] in
theorem run_emits (client : DiscoveryComposeClientStd) {σ ρ : Type}
    {resume : σ → Option Bytes → Step DiscoveryYield σ ρ} {toProc : σ → ProtocolRun ρ}
    (h : Refines resume toProc) {s : σ} {p : Protocol ρ}
    (hs : (toProc s).resume none = drive exchanges p) (script : List StreamIo) :
    p.Emits client.ExchangeExec (run resume client.pool s script).events
      (run resume client.pool s script).result :=
  h.pump_emits hs (fun pool y io => runYield_holds pool y io) client.pool_holds script

theorem Job.run_emits (client : DiscoveryComposeClientStd) (job : Job) (script : List StreamIo) :
    (job.program client).Emits client.ExchangeExec (job.run client script).1
      (job.run client script).2 := by
  cases job with
  | check domain =>
    exact PimDiscovery.run_emits client DiscoveryDnsProbe.refines
      (DiscoveryDnsProbe.toProc_new domain client.dns) script
  | mx domain =>
    exact PimDiscovery.run_emits client DiscoveryDnsMx.refines
      (DiscoveryDnsMx.toProc_new domain client.dns none) script
  | pacc domain =>
    cases hurl : DiscoveryPacc.url domain with
    | error err =>
      have hnew : DiscoveryPacc.new domain client.dns = .error err := by
        rw [DiscoveryPacc.new, hurl]
      simp only [program, Job.run, hurl, hnew]
      exact .pure _
    | ok url =>
      cases hnew : DiscoveryPacc.new domain client.dns with
      | error err => simp [DiscoveryPacc.new, hurl] at hnew
      | ok coroutine =>
        simp only [program, Job.run, hurl, hnew]
        exact PimDiscovery.run_emits client DiscoveryPacc.refines
          (DiscoveryPacc.toProc_new hurl hnew) script
  | isp url =>
    exact PimDiscovery.run_emits client DiscoveryIsp.refines (DiscoveryIsp.toProc_new url) script
  | mailconf domain =>
    exact PimDiscovery.run_emits client DiscoveryMailconf.refines
      (DiscoveryMailconf.toProc_new domain client.dns none) script
  | cname host =>
    exact PimDiscovery.run_emits client DiscoveryDnsCname.refines
      (DiscoveryDnsCname.toProc_new host client.dns none) script
  | srv domain =>
    exact PimDiscovery.run_emits client DiscoverySrv.refines
      (DiscoverySrv.toProc_new domain client.dns none) script
  | dav domain service =>
    exact PimDiscovery.run_emits client DiscoveryDavResolve.refines
      (DiscoveryDavResolve.toProc_new domain service client.dns client.secureOnly none) script
  | jmap domain =>
    exact PimDiscovery.run_emits client DiscoveryJmapResolve.refines
      (DiscoveryJmapResolve.toProc_new domain client.dns none) script
  | wellKnown origin service =>
    exact PimDiscovery.run_emits client DiscoveryWellKnown.refines
      (DiscoveryWellKnown.toProc_new origin service) script
  | auth url =>
    exact PimDiscovery.run_emits client DiscoveryProbeAuth.refines
      (DiscoveryProbeAuth.toProc_new url) script
  | oauthServer url =>
    exact PimDiscovery.run_emits client DiscoveryOauthServerResolve.refines
      (DiscoveryOauthServerResolve.toProc_new url) script
  | oauthResource url =>
    exact PimDiscovery.run_emits client DiscoveryOauthResourceResolve.refines
      (DiscoveryOauthResourceResolve.toProc_new url) script

end
end PimDiscovery
