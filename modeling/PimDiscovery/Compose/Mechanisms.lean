import PimDiscovery.Compose.Job
import PimDiscovery.Compose.Providers

/-! The mechanisms of the client: each runs its coroutines one after the other and converts what
they return. -/

namespace PimDiscovery
open Interaction

abbrev Work (α : Type) : Type := Prog Job Job.Answer α

namespace Work

def run (job : Job) : Work job.Answer := Prog.call job

end Work

inductive DiscoveryComposeClientStdError where
  | invalidEmail (email : String)
  | plainResolver (url : Url)
  | resolver (resolver : Url) (reason : String)
  deriving DecidableEq, Repr

inductive Mechanism where
  | mx | pacc | ispMain | ispFallback | mailconf | ispdb | mxAutoconfig | srv | caldav | carddav | jmap
  deriving DecidableEq, Repr

/-- Lowercases and trims surrounding whitespace and dots from a domain. -/
def normalizeDomain (domain : String) : String :=
  Text.toAsciiLowercase (Text.trimMatches (Text.trim domain) '.')

def domainPart (email : String) : String :=
  normalizeDomain (((Text.splitOnce email '@').map (·.2)).getD email)

section
variable [PslCrate]

/-- The registrable domains of the exchanges, less the address's own, in order. -/
def mxBases (domain : String) (records : List Mx) : List String :=
  records.foldl (fun bases record =>
    match mxBaseDomain record.exchange.text with
    -- The domain itself is served by the other locations.
    | some base => if base != domain && !bases.contains base then bases ++ [base] else bases
    | none => bases) []

end

section
variable [UrlCrate]

def davRootTarget (config : DiscoveryServiceConfig) : Option (DiscoveryDavService × Url) :=
  let service : Option DiscoveryDavService := match config.service with
    | .caldav => some .caldav
    | .carddav => some .carddav
    | _ => none
  match service with
  | none => none
  | some service =>
    if config.resolved then none
    else
      match config.endpoint with
      | .tcp _ _ _ => none
      | .http raw =>
        match UrlCrate.parse raw with
        | .error _ => none
        | .ok url =>
          -- Only a bare web origin is probed.
          if !(url.path == "" || url.path == "/") || url.query.isSome ||
            !(url.scheme == "http" || url.scheme == "https") then none
          else some (service, { url.setPath "/" with fragment := none })

end

namespace DiscoveryComposeClientStd
variable (self : DiscoveryComposeClientStd)

def checkResolver (input : String) : Work (Except DiscoveryComposeClientStdError Unit) :=
  if self.secureOnly && self.dns.scheme == "http" then pure (.error (.plainResolver self.dns))
  else do
    let failed reason : Except DiscoveryComposeClientStdError Unit := .error (.resolver self.dns reason)
    match ← Work.run (.check (domainPart input)) with
    | .ok rcode =>
      if rcode.isAnswer then pure (.ok ()) else pure (failed ("answered " ++ rcode.name))
    | .error err => pure (failed err.message)

def providerFromMx (domain : String) : Work (Option DiscoveryKnownProvider) := do
  match ← Work.run (.mx domain) with
  | .ok records => pure (records.findSome? fun record => DiscoveryKnownProvider.fromMx record.exchange.text)
  | .error _ => pure none

def detectProvider (email : String) : Work (Option DiscoveryKnownProvider) :=
  match DiscoveryKnownProvider.fromDomain (domainPart email) with
  | some provider => pure (some provider)
  | none => providerFromMx (domainPart email)

def runMx (domain email : String) : Work (List DiscoveryServiceConfig) := do
  match ← providerFromMx domain with
  | some provider => pure (provider.configs email)
  | none => pure []

def runSrv (domain : String) : Work (List DiscoveryServiceConfig) := do
  match ← Work.run (.srv domain) with
  | .ok report => pure (DiscoveryServiceConfig.fromSrv report)
  | .error _ => pure []

section
variable [UrlCrate]

def keepSecure (configs : List DiscoveryServiceConfig) : List DiscoveryServiceConfig :=
  if self.secureOnly then configs.filter (·.isSecure) else configs

def runPacc (domain : String) : Work (List DiscoveryServiceConfig) := do
  match ← Work.run (.pacc domain) with
  | .ok config => pure (self.keepSecure (DiscoveryServiceConfig.fromPacc config))
  | .error _ => pure []

def runIsp (url : Url) (email : String) (source : DiscoveryConfigSource) :
    Work (List DiscoveryServiceConfig) := do
  match ← Work.run (.isp url) with
  | .ok config => pure (self.keepSecure (DiscoveryServiceConfig.fromAutoconfig config email source))
  | .error _ => pure []

def runIspAt (url : Except String Url) (email : String) (source : DiscoveryConfigSource) :
    Work (List DiscoveryServiceConfig) :=
  match url with
  | .ok url => self.runIsp url email source
  | .error _ => pure []

def runIspAlias (host email : String) (source : DiscoveryConfigSource) :
    Work (List DiscoveryServiceConfig) := do
  match ← Work.run (.cname host) with
  | .ok (some target) => self.runIspAt (DiscoveryIsp.hostUrl email target true) email source
  | .ok none => pure []
  | .error _ => pure []

def runIspMain (localPart domain email : String) : Work (List DiscoveryServiceConfig) := do
  let configs ← self.runIspAt (DiscoveryIsp.mainUrl localPart domain true) email .ispMain
  -- Nothing over TLS: the name may be an alias of one the provider has a certificate for.
  if configs.isEmpty then self.runIspAlias ("autoconfig." ++ domain) email .ispMain else pure configs

def runIspFallback (domain email : String) : Work (List DiscoveryServiceConfig) :=
  self.runIspAt (DiscoveryIsp.fallbackUrl domain true) email .ispFallback

def runIspdb (domain email : String) : Work (List DiscoveryServiceConfig) :=
  self.runIspAt (DiscoveryIsp.dbUrl domain true) email .ispdb

def runMailconf (domain email : String) : Work (List DiscoveryServiceConfig) := do
  match ← Work.run (.mailconf domain) with
  | .ok url =>
    -- The TXT record may redirect to a plain URL.
    if self.secureOnly && url.scheme != "https" then pure []
    else self.runIsp url email .mailconf
  | .error _ => pure []

/-- Tries the providers in turn, up to the first document that gives configs. -/
def tryBases (email : String) : List String → Work (List DiscoveryServiceConfig)
  | [] => pure []
  | base :: bases => do
    let host := "autoconfig." ++ base
    let configs ← self.runIspAt (DiscoveryIsp.hostUrl email host true) email .mx
    if !configs.isEmpty then return configs
    let configs ← self.runIspAlias host email .mx
    if !configs.isEmpty then return configs
    let configs ← self.runIspAt (DiscoveryIsp.dbUrl base true) email .mx
    if !configs.isEmpty then return configs
    tryBases email bases

def runMxAutoconfig [PslCrate] (domain email : String) : Work (List DiscoveryServiceConfig) := do
  match ← Work.run (.mx domain) with
  | .ok records => self.tryBases email (mxBases domain records)
  | .error _ => pure []

def runDav (domain : String) (service : DiscoveryDavService) :
    Work (List DiscoveryServiceConfig) := do
  let configService := match service with
    | .caldav => .caldav
    | .carddav => .carddav
  match ← Work.run (.dav domain service) with
  | .ok url => pure (self.keepSecure [DiscoveryServiceConfig.fromDav configService (UrlCrate.asStr url)])
  | .error _ => pure []

def runJmap (domain : String) : Work (List DiscoveryServiceConfig) := do
  match ← Work.run (.jmap domain) with
  | .ok session =>
    pure (self.keepSecure
      [DiscoveryServiceConfig.fromJmap (UrlCrate.asStr session.url) session.authSchemes])
  | .error _ => pure []

def runMechanism [PslCrate] (mechanism : Mechanism) (localPart domain email : String) :
    Work (List DiscoveryServiceConfig) :=
  match mechanism with
  | .mx => runMx domain email
  | .pacc => self.runPacc domain
  | .ispMain => self.runIspMain localPart domain email
  | .ispFallback => self.runIspFallback domain email
  | .mailconf => self.runMailconf domain email
  | .ispdb => self.runIspdb domain email
  | .mxAutoconfig => self.runMxAutoconfig domain email
  | .srv => runSrv domain
  | .caldav => self.runDav domain .caldav
  | .carddav => self.runDav domain .carddav
  | .jmap => self.runJmap domain

def probeDavRoot (service : DiscoveryDavService) (origin : Url) : Work (Option Url) := do
  match ← Work.run (.wellKnown origin service) with
  | .ok root => pure root
  | .error _ => pure none

/-- The schemes advertised at the first of the URLs that advertises any. -/
def probeSchemes : List Url → Work (Option (List String))
  | [] => pure none
  | url :: urls => do
    match ← Work.run (.auth url) with
    | .ok schemes => if !schemes.isEmpty then pure (some schemes) else probeSchemes urls
    | .error _ => probeSchemes urls

def auth (url : Url) : Work (Option (List String)) := do
  match ← Work.run (.auth url) with
  | .ok schemes => if !schemes.isEmpty then pure (some schemes) else pure none
  | .error _ => pure none

def oauthServer (issuer : Url) : Work (Option DiscoveryOauthServerMetadata) := do
  match ← Work.run (.oauthServer (DiscoveryOauthServerMetadata.wellKnownUrl issuer)) with
  | .ok metadata => pure (some metadata)
  | .error _ =>
    -- The OAuth location failed: the OpenID Connect one is next.
    match ← Work.run (.oauthServer (DiscoveryOauthServerMetadata.openidWellKnownUrl issuer)) with
    | .ok metadata => pure (some metadata)
    | .error _ => pure none

def oauthResource (resource : Url) : Work (Option DiscoveryOauthResourceMetadata) := do
  match ← Work.run (.oauthResource (DiscoveryOauthResourceMetadata.wellKnownUrl resource)) with
  | .ok metadata => pure (some metadata)
  | .error _ => pure none

def issuerMethods (metadata : DiscoveryOauthServerMetadata) : List DiscoveryAuthMethod :=
  (match metadata.authorizationEndpoint, metadata.tokenEndpoint with
    | some authorization, some token =>
      [.oauthAuthorizationCodeGrant (UrlCrate.asStr authorization) (UrlCrate.asStr token) none none
        metadata.scopesSupported]
    | _, _ => []) ++
  (match metadata.deviceAuthorizationEndpoint, metadata.tokenEndpoint with
    | some device, some token =>
      [.oauthDeviceAuthorizationGrant (UrlCrate.asStr device) (UrlCrate.asStr token) none none
        metadata.scopesSupported]
    | _, _ => [])

def resolveIssuer (issuer : String) : Work (List DiscoveryAuthMethod) := do
  let bare : List DiscoveryAuthMethod := [.oauthIssuer issuer]
  match UrlCrate.parse issuer with
  | .error _ => pure bare
  | .ok issuerUrl =>
    match ← oauthServer issuerUrl with
    | none => pure bare
    | some metadata =>
      let methods := issuerMethods metadata
      pure (if methods.isEmpty then bare else methods)

/-! The single mechanisms, as the client offers them. -/

def provider (email : String) : Work (List DiscoveryServiceConfig) := do
  match ← detectProvider email with
  | some provider => pure (provider.configs email)
  | none => pure []

def isGoogle (email : String) : Work (List DiscoveryServiceConfig) := do
  match ← detectProvider email with
  | some .google => pure (DiscoveryKnownProvider.google.configs email)
  | _ => pure []

def isMicrosoft (email : String) : Work (List DiscoveryServiceConfig) := do
  match ← detectProvider email with
  | some .microsoft => pure (DiscoveryKnownProvider.microsoft.configs email)
  | _ => pure []

def autoconfig [PslCrate] (email : String) : Work (List DiscoveryServiceConfig) := do
  let localPart := ((Text.splitOnce email '@').map (·.1)).getD ""
  let domain := domainPart email
  let main ← self.runIspMain localPart domain email
  let fallback ← self.runIspFallback domain email
  let ispdb ← self.runIspdb domain email
  let mailconf ← self.runMailconf domain email
  let mx ← self.runMxAutoconfig domain email
  pure (main ++ fallback ++ ispdb ++ mailconf ++ mx)

def srv (input : String) : Work (List DiscoveryServiceConfig) := runSrv (domainPart input)

def pacc (input : String) : Work (List DiscoveryServiceConfig) := self.runPacc (domainPart input)

def dav (input : String) (service : DiscoveryDavService) : Work (List DiscoveryServiceConfig) :=
  self.runDav (domainPart input) service

def jmap (input : String) : Work (List DiscoveryServiceConfig) := self.runJmap (domainPart input)

end
end DiscoveryComposeClientStd
end PimDiscovery
