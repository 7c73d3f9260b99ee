import PimDiscovery.Compose.Streams
import PimDiscovery.Pacc.Vouched

/-! The exchanges of each job of a secure-only client, as long as nothing it follows out of an answer
is a `tcp` URL. -/

namespace PimDiscovery
open Interaction

theorem parseOrigin_https [UrlCrate] (hurls : HttpsUrls) {host : String} {port : UInt16} {url : Url}
    (h : parseOrigin "https" host port = .ok url) : url.scheme = "https" := by
  have hraw : "https" ++ "://" ++ host ++ ":" ++ toString port.toNat ++ "/" =
      "https://" ++ (host ++ ":" ++ toString port.toNat ++ "/") := by
    simp only [String.append_assoc]
    rfl
  unfold parseOrigin at h
  simp only [hraw] at h
  split at h
  · rename_i parsed hparsed
    obtain rfl := Except.ok.inj h
    exact hurls.scheme _ _ hparsed
  · exact nomatch h

namespace DiscoveryComposeClientStd
variable [UrlCrate]

def GoodIssuer (issuer : String) : Prop :=
  ∀ url, UrlCrate.parse issuer = .ok url → ¬ url.OpensTcp

def GoodJob : Job → Prop
  | .isp url | .auth url | .oauthServer url => ¬ url.OpensTcp
  | .oauthResource url =>
    ¬ url.OpensTcp ∧ ∃ resource, url = DiscoveryOauthResourceMetadata.wellKnownUrl resource
  | .wellKnown origin _ => origin.scheme = "http" ∨ origin.scheme = "https"
  | _ => True

def GoodAnswer : (job : Job) → job.Answer → Prop
  | .pacc _, answer => ∀ config oauth, answer = .ok config →
    config.authentication.oauthPublic = some oauth → GoodIssuer oauth.issuer
  | .oauthResource _, answer => ∀ metadata, answer = .ok metadata →
    ∀ server ∈ metadata.authorizationServers, GoodIssuer (UrlCrate.asStr server)
  | _, _ => True

section
variable [DomainCrate] [SerdeCrate] {client : DiscoveryComposeClientStd}

omit [UrlCrate] [SerdeCrate] in
theorem asksDns (qtype : QType) : AsksDns client.GoodExchange qtype client.dns :=
  fun _ message hmessage => ⟨rfl, message, hmessage⟩

theorem walksStay : WalksStay client.GoodExchange NamesNoTcp fun url => ¬ url.OpensTcp where
  asks _ _ _ h := h
  redirect _ _ _ output hhops hallowed next hnext := hallowed hhops output next rfl hnext

variable [IoHttpCrate]

omit [DomainCrate] [SerdeCrate] in
theorem wellKnown_good (hrequests : WellKnownRequests) {origin : Url}
    (h : origin.scheme = "http" ∨ origin.scheme = "https") (service : String) :
    ∀ request, IoHttpCrate.prepareRequest (UrlCrate.asStr origin) service = .ok request →
      ¬ request.url.OpensTcp := by
  intro request hrequest
  have hscheme := hrequests.scheme origin service request h hrequest
  exact Url.not_opensTcp_http (hscheme ▸ h)

variable (hurls : HttpsUrls)
include hurls

theorem jmap_good (domain : String) :
    (DiscoveryJmapResolve.program domain client.dns).Always client.GoodExchange NamesNoTcp
      fun _ => True := by
  have horigin : ∀ srv, (DiscoveryJmapResolve.tryOrigin (Text.trimMatches domain '.') srv).Always
      client.GoodExchange NamesNoTcp fun _ => True := by
    intro srv
    unfold DiscoveryJmapResolve.tryOrigin DiscoveryJmapResolve.origin
    simp only
    cases horigin : parseOrigin "https" _ _ with
    | error err => trivial
    | ok origin =>
      have hhttps := parseOrigin_https hurls horigin
      refine (DiscoveryJmapWellKnown.always walksStay
        (Url.not_opensTcp_https (by simpa using hhttps))).bind fun result _ => ?_
      rcases result with _ | _ | _ <;> trivial
  refine (DnsLookup.always .srv readSrv (asksDns .srv)).bind fun records _ => ?_
  cases records with
  | error err => exact horigin none
  | ok records => exact horigin _

variable (hrequests : WellKnownRequests)
include hrequests

theorem tryRecord_good (service : DiscoveryDavService) (domain : String)
    {record : Option (Bool × DiscoverySrvService)} (hrecord : ∀ found, record = some found →
      found.1 = true) :
    (DiscoveryDavResolve.tryRecord service domain client.dns record).Always client.GoodExchange
      NamesNoTcp fun _ => True := by
  have hhttps : ∀ origin, DiscoveryDavResolve.origin domain record = .ok origin →
      origin.scheme = "https" := by
    intro origin horigin
    -- With a TLS record, or none at all, the origin is built with `https`.
    have hparsed : ∃ host port, parseOrigin "https" host port = .ok origin := by
      rcases record with _ | ⟨secure, srv⟩
      · refine ⟨domain, 443, ?_⟩
        unfold DiscoveryDavResolve.origin at horigin
        simp only at horigin
        split at horigin
        · rwa [← Except.ok.inj horigin]
        · exact nomatch horigin
      · obtain rfl : secure = true := hrecord _ rfl
        refine ⟨srv.host, srv.port, ?_⟩
        unfold DiscoveryDavResolve.origin at horigin
        simp only at horigin
        split at horigin
        · rwa [← Except.ok.inj horigin]
        · exact nomatch horigin
    obtain ⟨host, port, hparsed⟩ := hparsed
    exact parseOrigin_https hurls hparsed
  unfold DiscoveryDavResolve.tryRecord
  cases horigin : DiscoveryDavResolve.origin domain record with
  | error err => trivial
  | ok origin =>
    have hscheme := hhttps origin horigin
    have hprobe := wellKnown_good hrequests (.inr hscheme) service.serviceName
    simp only
    cases record with
    | none =>
      exact (DiscoveryDavResolve.tryWellKnown_always walksStay (Url.not_opensTcp_https hscheme)
        hprobe).mono fun _ _ => trivial
    | some found =>
      obtain ⟨secure, srv⟩ := found
      obtain rfl : secure = true := hrecord _ rfl
      refine (DiscoveryWebdavTxt.always (asksDns .txt)).bind fun result hresult => ?_
      refine (DiscoveryDavResolve.afterTxt_always walksStay (Url.not_opensTcp_https hscheme) hprobe
        fun path hpath root hroot => ?_).mono fun _ _ => trivial
      obtain ⟨answer, hanswer, hread⟩ := hresult path hpath
      exact hanswer service domain path rfl hread origin root hscheme hroot

theorem davResolve_good (hsecure : client.secureOnly = true) (domain : String)
    (service : DiscoveryDavService) :
    (DiscoveryDavResolve.program domain service client.dns client.secureOnly).Always
      client.GoodExchange NamesNoTcp fun _ => True := by
  refine (SrvSeries.always _ (asksDns .srv) _).bind fun result _ => ?_
  cases result with
  | error err => exact tryRecord_good hurls hrequests service _ nofun
  | ok report =>
    refine tryRecord_good hurls hrequests service _ fun found hfound => ?_
    unfold DiscoveryDavResolve.record at hfound
    rw [hsecure] at hfound
    split at hfound
    · rw [← Option.some.inj hfound]
    · exact nomatch hfound
    · exact nomatch hfound

variable [DigestCrate]

omit hrequests in
theorem pacc_good (domain : String) :
    ((Job.pacc domain).program client).Always client.GoodExchange NamesNoTcp
      (GoodAnswer (.pacc domain)) := by
  cases hurl : DiscoveryPacc.url domain with
  | error err =>
    simp only [Job.program, hurl]
    intro config oauth hok
    cases hok
  | ok url =>
    simp only [Job.program, hurl]
    have hscheme : url.scheme = "https" := by
      unfold DiscoveryPacc.url at hurl
      simp only [String.append_assoc] at hurl
      split at hurl
      · rename_i parsed hparsed
        obtain rfl := Except.ok.inj hurl
        exact hurls.scheme ("ua-auto-config." ++ _) _ hparsed
      · cases hurl
    have hget : client.GoodExchange (.send (DiscoveryHttpGet.request url)) :=
      Url.not_opensTcp_https hscheme
    refine (HttpFetch.always _ DiscoveryHttpGet.finish hget).bind fun fetched hfetched => ?_
    obtain ⟨answer, hanswer, rfl⟩ := hfetched
    cases hbody : DiscoveryHttpGet.finish answer with
    | error err =>
      intro config oauth hok
      cases hok
    | ok body =>
      refine (DnsLookup.always .txt readTxt (asksDns .txt)).bind fun records _ => ?_
      intro config oauth hok hoauth issuer hissuer
      cases records with
      | error err => cases hok
      | ok records =>
        obtain ⟨-, hparsed⟩ := (verifyRecords_ok_iff body records config).mp hok
        exact hanswer.1 domain url body config oauth issuer hurl rfl hbody hparsed hoauth hissuer

/-- A good job of a secure-only client puts good exchanges only, and returns what is good to use. -/
theorem job_good (hsecure : client.secureOnly = true) {job : Job} (hjob : GoodJob job) :
    (job.program client).Always client.GoodExchange NamesNoTcp (GoodAnswer job) := by
  cases job with
  | check domain => exact DiscoveryDnsProbe.always (asksDns .soa)
  | mx domain => exact (DnsLookup.always .mx readMx (asksDns .mx)).mono fun _ _ => trivial
  | pacc domain => exact pacc_good hurls domain
  | isp url =>
    exact (HttpFetch.always DiscoveryHttpGet.request DiscoveryHttpGet.finish hjob).bind
      fun _ _ => trivial
  | mailconf domain =>
    exact (DnsLookup.always .txt readTxt (asksDns .txt)).bind fun _ _ => trivial
  | cname host => exact (DnsLookup.always .a readCname (asksDns .a)).mono fun _ _ => trivial
  | srv domain => exact SrvSeries.always _ (asksDns .srv) _
  | dav domain service => exact davResolve_good hurls hrequests hsecure domain service
  | jmap domain => exact jmap_good hurls domain
  | wellKnown origin service =>
    exact (DiscoveryWellKnown.always walksStay (wellKnown_good hrequests hjob _)).mono
      fun _ _ => trivial
  | auth url =>
    have hurl : ¬ (HttpRequest.get url).url.OpensTcp := hjob
    exact (DiscoveryHttpWalk.always .schemes walksStay hurl).bind fun _ _ => trivial
  | oauthServer url =>
    exact (HttpFetch.always oauthRequest DiscoveryOauthServerResolve.finish hjob).mono
      fun _ _ => trivial
  | oauthResource url =>
    obtain ⟨hurl, resource, rfl⟩ := hjob
    refine (HttpFetch.always oauthRequest DiscoveryOauthResourceResolve.finish hurl).mono
      fun result hresult metadata hmetadata server hserver issuer hissuer => ?_
    obtain ⟨answer, hanswer, rfl⟩ := hresult
    exact hanswer.2 resource metadata rfl hmetadata server hserver issuer hissuer

end
end DiscoveryComposeClientStd
end PimDiscovery
