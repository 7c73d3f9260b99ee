import PimDiscovery.Crates
import PimDiscovery.Autoconfig.Config
import PimDiscovery.Pacc.Config
import PimDiscovery.Serde.Json

/-! The documents servers answer with, and the parsers that read them off a response body. -/

namespace PimDiscovery

/-- The RFC 8414 metadata, less the fields that are only reported. -/
structure DiscoveryOauthServerMetadata where
  issuer : Url
  authorizationEndpoint : Option Url
  tokenEndpoint : Option Url
  scopesSupported : List String
  deviceAuthorizationEndpoint : Option Url
  deriving DecidableEq, Repr

/-- The RFC 9728 metadata, less the fields that are only reported. -/
structure DiscoveryOauthResourceMetadata where
  resource : Url
  authorizationServers : List Url
  scopesSupported : List String
  deriving DecidableEq, Repr

/-- `serde_json` and `serde_xml` on the documents that are fetched. -/
class SerdeCrate where
  parseValue : Bytes → Except String JsonValue
  parsePacc : Bytes → Except String DiscoveryPaccConfig
  parseAutoconfig : String → Except String DiscoveryAutoconfig
  parseServerMetadata : Bytes → Except String DiscoveryOauthServerMetadata
  parseResourceMetadata : Bytes → Except String DiscoveryOauthResourceMetadata

end PimDiscovery
