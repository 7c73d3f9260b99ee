import PimDiscovery.Text

/-! The PACC document, less its `info` block, which is only displayed. -/

namespace PimDiscovery

structure DiscoveryHttpProtocol where
  url : String
  deriving DecidableEq, Repr

structure DiscoveryTextProtocol where
  host : String
  deriving DecidableEq, Repr

structure DiscoveryProtocols where
  jmap : Option DiscoveryHttpProtocol
  caldav : Option DiscoveryHttpProtocol
  carddav : Option DiscoveryHttpProtocol
  webdav : Option DiscoveryHttpProtocol
  imap : Option DiscoveryTextProtocol
  pop3 : Option DiscoveryTextProtocol
  smtp : Option DiscoveryTextProtocol
  managesieve : Option DiscoveryTextProtocol
  deriving DecidableEq, Repr

structure DiscoveryOauthPublic where
  issuer : String
  deriving DecidableEq, Repr

structure DiscoveryAuthentication where
  oauthPublic : Option DiscoveryOauthPublic
  password : Option Bool
  deriving DecidableEq, Repr

structure DiscoveryPaccConfig where
  protocols : DiscoveryProtocols
  authentication : DiscoveryAuthentication
  deriving DecidableEq, Repr

end PimDiscovery
