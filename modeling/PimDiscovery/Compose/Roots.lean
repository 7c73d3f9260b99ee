import PimDiscovery.Compose.Within

/-! The resolution of the advertised DAV origins: which configs it changes, and how. -/

namespace PimDiscovery
open Interaction

def Effect.probes : Effect → Option (DiscoveryDavService × Url)
  | .spawn .davRoot _ (.davRoot service origin) => some (service, origin)
  | .join .davRoot (.davRoot service origin) => some (service, origin)
  | _ => none

def Trace.probed (trace : Trace) : List (DiscoveryDavService × Url) :=
  trace.filterMap (·.question.probes)

namespace DiscoveryComposeClientStd
variable [UrlCrate] (client : DiscoveryComposeClientStd)

section
variable (reported : DiscoveryDavService × Url → Option Url)

end

section
variable {client} {reported : DiscoveryDavService × Url → Option Url}
  {config : DiscoveryServiceConfig}

end

variable {client} {o : Answers} {outputs : List (List DiscoveryServiceConfig)}

end DiscoveryComposeClientStd
end PimDiscovery
