import PimDiscovery.Compose.Job
import PimDiscovery.Interaction.Answers

/-! What a coroutine that runs several others does not tell apart, from what those do not. -/

namespace PimDiscovery
open Interaction

section
variable [UrlCrate] [DomainCrate] [IoHttpCrate] [SerdeCrate]

structure Respected (Alike : ∀ q : Exchange, q.Answer → q.Answer → Prop) : Prop where
  probe : ∀ domain resolver, (DiscoveryDnsProbe.program domain resolver).Respects Alike
  srv : ∀ qname resolver, (DiscoveryDnsSrv.program qname resolver).Respects Alike
  mx : ∀ domain resolver, (DiscoveryDnsMx.program domain resolver).Respects Alike
  cname : ∀ host resolver, (DiscoveryDnsCname.program host resolver).Respects Alike
  txt : ∀ qname resolver, (DiscoveryDnsTxt.program qname resolver).Respects Alike
  get : ∀ url, (DiscoveryHttpGet.program url).Respects Alike
  context : ∀ walk url, (DiscoveryDavContext.program walk url).Respects Alike
  wellKnown : ∀ origin service, (DiscoveryWellKnown.program origin service).Respects Alike
  session : ∀ origin, (DiscoveryJmapWellKnown.program origin).Respects Alike
  schemes : ∀ url, (DiscoveryProbeAuth.program url).Respects Alike

namespace Respected
variable {Alike : ∀ q : Exchange, q.Answer → q.Answer → Prop} (h : Respected Alike)
include h

theorem series {ρ : Type} (domain : String) (resolver : Url) (left : List (SrvLookup ρ)) (report : ρ) :
    (SrvSeries.program domain resolver left report).Respects Alike := by
  induction left generalizing report with
  | nil => trivial
  | cons lookup left ih =>
    refine (h.srv (lookup.qname domain) resolver).bind fun result => ?_
    cases result with
    | error err => trivial
    | ok records => exact ih _

theorem tryOrigin (origin : Url) : (DiscoveryDavResolve.tryOrigin origin).Respects Alike := by
  refine (h.context .origin origin).bind fun result => ?_
  rcases result with err | _ | root <;> trivial

theorem tryWellKnown (service : DiscoveryDavService) (origin : Url) :
    (DiscoveryDavResolve.tryWellKnown service origin).Respects Alike := by
  refine (h.wellKnown origin service).bind fun result => ?_
  rcases result with err | _ | root
  · trivial
  · exact h.tryOrigin origin
  · trivial

theorem afterTxt (service : DiscoveryDavService) (origin : Url) (result : WebdavTxtResult) :
    (DiscoveryDavResolve.afterTxt service origin result).Respects Alike := by
  rcases result with err | _ | path
  · trivial
  · exact h.tryWellKnown service origin
  · unfold DiscoveryDavResolve.afterTxt
    simp only
    split
    · refine (h.context .txtPath _).bind fun result => ?_
      rcases result with err | _ | root
      · trivial
      · exact h.tryWellKnown service origin
      · trivial
    · trivial

theorem davResolve (domain : String) (service : DiscoveryDavService) (resolver : Url)
    (secureOnly : Bool) :
    (DiscoveryDavResolve.program domain service resolver secureOnly).Respects Alike := by
  have hrecord : ∀ record, (DiscoveryDavResolve.tryRecord service (Text.trimMatches domain '.')
      resolver record).Respects Alike := by
    intro record
    unfold DiscoveryDavResolve.tryRecord
    split
    · trivial
    · split
      · rename_i qname _
        have htxt : (DiscoveryWebdavTxt.program qname resolver).Respects Alike :=
          (h.txt qname resolver).bind fun _ => trivial
        exact htxt.bind fun result => h.afterTxt service _ result
      · exact h.tryWellKnown service _
  refine (h.series _ resolver _ _).bind fun result => ?_
  cases result with
  | error err => exact hrecord none
  | ok report => exact hrecord _

theorem jmapResolve (domain : String) (resolver : Url) :
    (DiscoveryJmapResolve.program domain resolver).Respects Alike := by
  have horigin : ∀ srv,
      (DiscoveryJmapResolve.tryOrigin (Text.trimMatches domain '.') srv).Respects Alike := by
    intro srv
    unfold DiscoveryJmapResolve.tryOrigin
    split
    · trivial
    · refine (h.session _).bind fun result => ?_
      rcases result with err | _ | session <;> trivial
  refine (h.srv _ resolver).bind fun result => ?_
  cases result with
  | error err => exact horigin none
  | ok records => exact horigin (DiscoveryJmapResolve.best records)

theorem pacc [DigestCrate] (url : Url) (domain : String) (resolver : Url) :
    (DiscoveryPacc.program url domain resolver).Respects Alike := by
  refine (h.get url).bind fun fetched => ?_
  cases fetched with
  | error err => trivial
  | ok body => exact (h.txt _ resolver).bind fun _ => trivial

/-- Neither does any job, but for the fetches of metadata, which make one exchange themselves. -/
theorem job [DigestCrate] (client : DiscoveryComposeClientStd) (job : Job)
    (hserver : ∀ url, job = .oauthServer url →
      (DiscoveryOauthServerResolve.program url).Respects Alike)
    (hresource : ∀ url, job = .oauthResource url →
      (DiscoveryOauthResourceResolve.program url).Respects Alike) :
    (job.program client).Respects Alike := by
  cases job with
  | check domain => exact h.probe domain client.dns
  | mx domain => exact h.mx domain client.dns
  | pacc domain =>
    simp only [Job.program]
    cases DiscoveryPacc.url domain with
    | error err => trivial
    | ok url => exact h.pacc url domain client.dns
  | isp url => exact (h.get url).bind fun _ => trivial
  | mailconf domain => exact (h.txt domain client.dns).bind fun _ => trivial
  | cname host => exact h.cname host client.dns
  | srv domain => exact h.series _ client.dns _ _
  | dav domain service => exact h.davResolve domain service client.dns _
  | jmap domain => exact h.jmapResolve domain client.dns
  | wellKnown origin service => exact h.wellKnown origin service
  | auth url => exact h.schemes url
  | oauthServer url => exact hserver url rfl
  | oauthResource url => exact hresource url rfl

end Respected
end
end PimDiscovery
