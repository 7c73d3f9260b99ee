import PimDiscovery.Compose.Job
import PimDiscovery.Interaction.Machine

/-! The coroutines of the jobs as machines, whatever their states are. -/

namespace PimDiscovery
open Interaction

variable [UrlCrate] [DomainCrate] [IoHttpCrate] [SerdeCrate] [DigestCrate]

namespace Job

/-- The coroutine of a job at its start. A `run_pacc` whose URL is invalid ends at once. -/
def machine (client : DiscoveryComposeClientStd) :
    (job : Job) → Machine Bytes DiscoveryYield job.Answer
  | check domain => ⟨_, DiscoveryDnsProbe.new domain client.dns, DiscoveryDnsProbe.resume⟩
  | mx domain => ⟨_, DiscoveryDnsMx.new domain client.dns, DiscoveryDnsMx.resume⟩
  | pacc domain =>
    match DiscoveryPacc.new domain client.dns with
    | .ok coroutine => ⟨_, coroutine, DiscoveryPacc.resume⟩
    | .error err => .ended (.error err)
  | isp url => ⟨_, DiscoveryIsp.new url, DiscoveryIsp.resume⟩
  | mailconf domain => ⟨_, DiscoveryMailconf.new domain client.dns, DiscoveryMailconf.resume⟩
  | cname host => ⟨_, DiscoveryDnsCname.new host client.dns, DiscoveryDnsCname.resume⟩
  | srv domain => ⟨_, DiscoverySrv.new domain client.dns, DiscoverySrv.resume⟩
  | dav domain service =>
    ⟨_, (DiscoveryDavResolve.new domain service client.dns).withSecureOnly client.secureOnly,
      DiscoveryDavResolve.resume⟩
  | jmap domain => ⟨_, DiscoveryJmapResolve.new domain client.dns, DiscoveryJmapResolve.resume⟩
  | wellKnown origin service =>
    ⟨_, DiscoveryWellKnown.new origin service, DiscoveryWellKnown.resume⟩
  | auth url => ⟨_, DiscoveryProbeAuth.new url, DiscoveryProbeAuth.resume⟩
  | oauthServer url => ⟨_, DiscoveryOauthServerResolve.new url, DiscoveryOauthServerResolve.resume⟩
  | oauthResource url =>
    ⟨_, DiscoveryOauthResourceResolve.new url, DiscoveryOauthResourceResolve.resume⟩

variable (client : DiscoveryComposeClientStd)

theorem machine_performs (job : Job) :
    (job.machine client).Performs exchanges (job.program client) := by
  cases job with
  | check domain =>
    exact ⟨_, DiscoveryDnsProbe.refines, DiscoveryDnsProbe.toProc_new domain client.dns⟩
  | mx domain => exact ⟨_, DiscoveryDnsMx.refines, DiscoveryDnsMx.toProc_new domain client.dns none⟩
  | pacc domain =>
    cases hnew : DiscoveryPacc.new domain client.dns with
    | error err =>
      have hurl : DiscoveryPacc.url domain = .error err := by
        unfold DiscoveryPacc.new at hnew
        cases hurl : DiscoveryPacc.url domain with
        | error err' => simpa [hurl] using hnew
        | ok url => simp [hurl] at hnew
      simp only [machine, program, hnew, hurl]
      exact Machine.ended_performs exchanges _
    | ok coroutine =>
      cases hurl : DiscoveryPacc.url domain with
      | error err => simp [DiscoveryPacc.new, hurl] at hnew
      | ok url =>
        simp only [machine, program, hnew, hurl]
        exact ⟨_, DiscoveryPacc.refines, DiscoveryPacc.toProc_new hurl hnew⟩
  | isp url => exact ⟨_, DiscoveryIsp.refines, DiscoveryIsp.toProc_new url⟩
  | mailconf domain =>
    exact ⟨_, DiscoveryMailconf.refines, DiscoveryMailconf.toProc_new domain client.dns none⟩
  | cname host =>
    exact ⟨_, DiscoveryDnsCname.refines, DiscoveryDnsCname.toProc_new host client.dns none⟩
  | srv domain => exact ⟨_, DiscoverySrv.refines, DiscoverySrv.toProc_new domain client.dns none⟩
  | dav domain service =>
    exact ⟨_, DiscoveryDavResolve.refines,
      DiscoveryDavResolve.toProc_new domain service client.dns client.secureOnly none⟩
  | jmap domain =>
    exact ⟨_, DiscoveryJmapResolve.refines, DiscoveryJmapResolve.toProc_new domain client.dns none⟩
  | wellKnown origin service =>
    exact ⟨_, DiscoveryWellKnown.refines, DiscoveryWellKnown.toProc_new origin service⟩
  | auth url => exact ⟨_, DiscoveryProbeAuth.refines, DiscoveryProbeAuth.toProc_new url⟩
  | oauthServer url =>
    exact ⟨_, DiscoveryOauthServerResolve.refines, DiscoveryOauthServerResolve.toProc_new url⟩
  | oauthResource url =>
    exact ⟨_, DiscoveryOauthResourceResolve.refines, DiscoveryOauthResourceResolve.toProc_new url⟩

/-- A job is run by pumping its machine through a fresh pool. -/
theorem run_eq_pumped (job : Job) (script : List StreamIo) :
    job.run client script = (((job.machine client).pumped runYield client.pool script).events,
      ((job.machine client).pumped runYield client.pool script).result) := by
  cases job with
  | pacc domain =>
    unfold Job.run machine
    simp only
    cases DiscoveryPacc.new domain client.dns with
    | error err =>
      simp only
      rw [Machine.pumped, pump_complete _ rfl]
    | ok coroutine => rfl
  | _ => rfl

end Job
end PimDiscovery
