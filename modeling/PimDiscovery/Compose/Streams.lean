import PimDiscovery.Compose.Guarded

/-! The streams a secure-only client writes to. Its pools keep the `tcp` factory, so an HTTP request
is kept off a bare TCP stream only by what the answers of the network name. -/

namespace PimDiscovery
open Interaction

def Url.OpensTcp (url : Url) : Prop :=
  ∃ key, StreamPoolKey.ofUrl url = some key ∧ key.scheme = "tcp"

theorem Url.not_opensTcp {url : Url} (h : Text.toAsciiLowercase url.scheme ≠ "tcp") :
    ¬ url.OpensTcp := by
  rintro ⟨key, hkey, hscheme⟩
  rw [StreamPoolKey.ofUrl_scheme hkey] at hscheme
  exact h hscheme

theorem Url.not_opensTcp_https {url : Url} (h : url.scheme = "https") : ¬ url.OpensTcp := by
  apply not_opensTcp
  rw [h]
  decide +kernel

theorem Url.not_opensTcp_http {url : Url} (h : url.scheme = "http" ∨ url.scheme = "https") :
    ¬ url.OpensTcp := by
  rcases h with h | h
  · apply not_opensTcp
    rw [h]
    decide +kernel
  · exact not_opensTcp_https h

section
variable [DomainCrate]

def DiscoveryComposeClientStd.CarriesDns (client : DiscoveryComposeClientStd) (d : Delivery) : Prop :=
  d.url = client.dns ∧ ∃ qtype name message, queryMessage qtype name = .ok message ∧
    d.bytes = framed message

def DiscoveryComposeClientStd.Encrypted (client : DiscoveryComposeClientStd) (d : Delivery) : Prop :=
  client.CarriesDns d ∨ d.stream.factory = "https"

end

/-! What the client follows out of an answer. -/

section
variable [UrlCrate] [DomainCrate]

def TxtNamesNoTcp (name : String) (answer : Except DiscoveryDnsExchangeError Bytes) : Prop :=
  ∀ (service : DiscoveryDavService) domain path, name = service.srvQname true domain →
    DiscoveryWebdavTxt.finish (DnsLookup.finish readTxt name answer) = .ok (some path) →
      ∀ origin root, origin.scheme = "https" → UrlCrate.join origin path = .ok root → ¬ root.OpensTcp

variable [SerdeCrate]

def PaccNamesNoTcp (request : HttpRequest) (answer : HttpSendEnd) : Prop :=
  ∀ domain url body config oauth issuer, DiscoveryPacc.url domain = .ok url →
    request = DiscoveryHttpGet.request url → DiscoveryHttpGet.finish answer = .ok body →
      SerdeCrate.parsePacc body = .ok config → config.authentication.oauthPublic = some oauth →
        UrlCrate.parse oauth.issuer = .ok issuer → ¬ issuer.OpensTcp

def ResourceNamesNoTcp (request : HttpRequest) (answer : HttpSendEnd) : Prop :=
  ∀ resource metadata, request = oauthRequest (DiscoveryOauthResourceMetadata.wellKnownUrl resource) →
    DiscoveryOauthResourceResolve.finish answer = .ok metadata →
      ∀ server ∈ metadata.authorizationServers, ∀ issuer,
        UrlCrate.parse (UrlCrate.asStr server) = .ok issuer → ¬ issuer.OpensTcp

/-- Nothing that is followed out of an answer leads to a bare TCP stream. -/
def NamesNoTcp : (q : Exchange) → q.Answer → Prop
  | .dns .txt name _, answer => TxtNamesNoTcp name answer
  | .dns _ _ _, _ => True
  | .hop _ hops _, answer => hops < maxHops → ∀ output next, answer = .ok output →
    output.redirectUrl = some next → ¬ next.OpensTcp
  | .send request, answer => PaccNamesNoTcp request answer ∧ ResourceNamesNoTcp request answer

end

/-- What `prepareRequest` makes of web origins. -/
structure WellKnownRequests [UrlCrate] [IoHttpCrate] : Prop where
  scheme : ∀ (origin : Url) service request, origin.scheme = "http" ∨ origin.scheme = "https" →
    IoHttpCrate.prepareRequest (UrlCrate.asStr origin) service = .ok request →
      request.url.scheme = origin.scheme

theorem plainHttp_wellKnownRequests :
    letI := plainUrl
    letI := plainHttp
    WellKnownRequests := by
  let _ := plainUrl
  let _ := plainHttp
  constructor
  intro origin service request hscheme hrequest
  obtain ⟨rest, hrest⟩ := PlainUrl.asStr_eq origin
  have hcolon : ':' ∉ origin.scheme.toList := by
    rcases hscheme with h | h <;> rw [h] <;> decide
  obtain ⟨url, hurl, hsame⟩ := PlainUrl.parse_scheme hcolon rest
  have hparse : PlainUrl.parse (PlainUrl.asStr origin) = .ok url :=
    (congrArg PlainUrl.parse hrest).trans hurl
  have hprepared : (PlainUrl.parse (PlainUrl.asStr origin)).map (fun url =>
      HttpRequest.get { url with path := "/.well-known/" ++ service }) = .ok request := hrequest
  rw [hparse] at hprepared
  rw [← Except.ok.inj hprepared]
  exact hsame

namespace DiscoveryComposeClientStd
variable {client : DiscoveryComposeClientStd}

/-- An exchange that can only write what a secure-only client may. -/
def GoodExchange [DomainCrate] (client : DiscoveryComposeClientStd) : Exchange → Prop
  | .dns qtype name resolver => resolver = client.dns ∧ ∃ message, queryMessage qtype name = .ok message
  | .hop _ _ request | .send request => ¬ request.url.OpensTcp

section
variable [DomainCrate] (hsecure : client.secureOnly = true) {pool : DiscoveryStreamPool}
  {url : Url} {bytes : Bytes} {io : StreamIo} {d : Delivery}
include hsecure

/-- Only the `tcp` factory is left beside the `https` one. -/
theorem delivery_encrypted (hpool : pool.Holds client.pool.factories)
    (hd : d ∈ (runYield pool (.wantsWrite url bytes) io).2.2) (hurl : ¬ url.OpensTcp) :
    client.Encrypted d := by
  obtain ⟨hy, key, hkey, hfactory, hmem⟩ := runYield_delivery hpool hd
  obtain ⟨rfl, rfl⟩ := DiscoveryYield.wantsWrite.inj hy
  rw [pool_secure hsecure] at hmem
  rcases List.mem_pair.mp hmem with hscheme | hscheme
  · exact .inr (hfactory.trans hscheme)
  · exact absurd ⟨key, hkey, hscheme⟩ hurl

variable [IoHttpCrate]

theorem dns_encrypted {qtype : QType} {name : String} {message : Bytes}
    (hmessage : queryMessage qtype name = .ok message) {ds : List Delivery}
    {r : Option (Except DiscoveryDnsExchangeError Bytes)}
    (h : client.ExchangeExec (.dns qtype name client.dns) ds r) : ∀ d ∈ ds, client.Encrypted d := by
  obtain ⟨world, script, hworld, rfl, -⟩ := h
  have hstart : DiscoveryDnsExchange.Sends message client.dns
      (exchanges.start (.dns qtype name client.dns)) := by
    simp only [exchanges, hmessage]
    exact DiscoveryDnsExchange.sends_new message client.dns
  refine pump_events (fun pool y io => runYield_holds pool y io) ?_ hstart none hworld script
  intro exchange arg y next hsends hres
  obtain ⟨hnext, hwrites⟩ := DiscoveryDnsExchange.resume_sends hsends hres
  refine ⟨hnext, fun pool io hpool d hd => ?_⟩
  obtain ⟨rfl, -⟩ := runYield_delivery hpool hd
  obtain ⟨hurl, hbytes | hscheme⟩ := hwrites d.url d.bytes rfl
  · exact .inl ⟨hurl, qtype, name, message, hmessage, hbytes⟩
  · exact delivery_encrypted hsecure hpool hd (Url.not_opensTcp_http (hurl ▸ hscheme))

omit [IoHttpCrate] in
theorem pump_encrypted {σ ρ : Type} {resume : σ → Option Bytes → Step DiscoveryYield σ ρ}
    (hurl : ¬ url.OpensTcp)
    (hwrites : ∀ s arg y s', resume s arg = .yielded y s' → y.url = url) (s : σ)
    (hpool : pool.Holds client.pool.factories) (script : List StreamIo) :
    ∀ d ∈ (pump runYield resume s none pool script).events, client.Encrypted d := by
  have hstep : ∀ s arg y s', True → resume s arg = .yielded y s' → True ∧
      ∀ pool io, pool.Holds client.pool.factories → ∀ d ∈ (runYield pool y io).2.2,
        client.Encrypted d := by
    intro s arg y s' _ hres
    refine ⟨trivial, fun pool io hpool d hd => ?_⟩
    obtain ⟨rfl, -⟩ := runYield_delivery hpool hd
    have hto : d.url = url := hwrites s arg _ s' hres
    exact delivery_encrypted hsecure hpool hd (hto ▸ hurl)
  exact pump_events (fun pool y io => runYield_holds pool y io) hstep trivial none hpool script

theorem hop_encrypted {walk : WalkRole} {hops : Nat} {request : HttpRequest}
    (hurl : ¬ request.url.OpensTcp) {ds : List Delivery}
    {r : Option (Except String HttpWellKnownOutput)}
    (h : client.ExchangeExec (.hop walk hops request) ds r) : ∀ d ∈ ds, client.Encrypted d := by
  obtain ⟨world, script, hworld, rfl, -⟩ := h
  exact pump_encrypted hsecure hurl (fun s arg y s' hres => resumeHop_url hres) _ hworld script

theorem send_encrypted {request : HttpRequest} (hurl : ¬ request.url.OpensTcp)
    {ds : List Delivery} {r : Option HttpSendEnd}
    (h : client.ExchangeExec (.send request) ds r) : ∀ d ∈ ds, client.Encrypted d := by
  obtain ⟨world, script, hworld, rfl, -⟩ := h
  exact pump_encrypted hsecure hurl (fun s arg y s' hres => resumeRequest_url hres) _ hworld script

theorem exchange_encrypted {q : Exchange} (hq : client.GoodExchange q) {ds : List Delivery}
    {r : Option q.Answer} (h : client.ExchangeExec q ds r) : ∀ d ∈ ds, client.Encrypted d := by
  cases q with
  | dns qtype name resolver =>
    obtain ⟨rfl, message, hmessage⟩ := hq
    exact dns_encrypted hsecure hmessage h
  | hop walk hops request => exact hop_encrypted hsecure hq h
  | send request => exact send_encrypted hsecure hq h

end
end DiscoveryComposeClientStd
end PimDiscovery
