import PimDiscovery.Text

/-! The SRV services of RFC 6186 mail discovery. -/

namespace PimDiscovery

structure DiscoverySrvService where
  host : String
  port : UInt16
  priority : UInt16
  weight : UInt16
  deriving DecidableEq, Repr

structure DiscoverySrvReport where
  imap : Option DiscoverySrvService
  imaps : Option DiscoverySrvService
  submission : Option DiscoverySrvService
  submissions : Option DiscoverySrvService
  deriving DecidableEq, Repr

end PimDiscovery
