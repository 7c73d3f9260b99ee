import PimDiscovery.Documents
import PimDiscovery.Shared.Http
import PimDiscovery.Shared.Walk

/-! The OAuth metadata fetches of RFC 8414 and RFC 9728, and the RFC 9110 authentication probe. -/

namespace PimDiscovery
open Interaction

section
variable [UrlCrate]

/-- Puts a well-known path between the host and the path of a URL. -/
def insertWellKnown (url : Url) (wellKnown : String) : Url :=
  { url.setPath (wellKnown ++ Text.trimEndMatches url.path '/') with query := none, fragment := none }

def DiscoveryOauthServerMetadata.wellKnownUrl (issuer : Url) : Url :=
  insertWellKnown issuer "/.well-known/oauth-authorization-server"

def DiscoveryOauthServerMetadata.openidWellKnownUrl (issuer : Url) : Url :=
  { issuer.setPath (Text.trimEndMatches issuer.path '/' ++ "/.well-known/openid-configuration") with
    query := none, fragment := none }

def DiscoveryOauthResourceMetadata.wellKnownUrl (resource : Url) : Url :=
  insertWellKnown resource "/.well-known/oauth-protected-resource"

end

inductive OauthResolveError where
  | http (err : String)
  | json (err : String)
  | redirect (url : Url) (code : Nat)
  | status (code : Nat)
  deriving DecidableEq

def oauthFinish {ρ : Type} (parse : Bytes → Except String ρ) :
    HttpSendEnd → Except OauthResolveError ρ
  | .response response =>
    if response.isSuccess then
      match parse response.body with
      | .ok metadata => .ok metadata
      | .error err => .error (.json err)
    else .error (.status response.status)
  | .redirect url response => .error (.redirect url response.status)
  | .failed err => .error (.http err)

def oauthRequest (url : Url) : HttpRequest := (HttpRequest.get url).header "Accept" "application/json"

section
variable [IoHttpCrate]

abbrev DiscoveryOauthServerResolve := HttpFetch

namespace DiscoveryOauthServerResolve

def new (url : Url) : DiscoveryOauthServerResolve := HttpFetch.new oauthRequest url

variable [SerdeCrate]

def finish : HttpSendEnd → Except OauthResolveError DiscoveryOauthServerMetadata :=
  oauthFinish SerdeCrate.parseServerMetadata

def resume : DiscoveryOauthServerResolve → Option Bytes → Step DiscoveryYield
    DiscoveryOauthServerResolve (Except OauthResolveError DiscoveryOauthServerMetadata) :=
  HttpFetch.resume finish

def program (url : Url) : Protocol (Except OauthResolveError DiscoveryOauthServerMetadata) :=
  HttpFetch.program oauthRequest finish url

variable [DomainCrate]

def toProc (self : DiscoveryOauthServerResolve) :
    ProtocolRun (Except OauthResolveError DiscoveryOauthServerMetadata) :=
  HttpFetch.toProc oauthRequest finish self

theorem refines : Refines resume toProc := HttpFetch.refines finish fun _ => rfl

theorem toProc_new (url : Url) : (toProc (new url)).resume none = drive exchanges (program url) :=
  HttpFetch.toProc_new oauthRequest finish url

end DiscoveryOauthServerResolve

abbrev DiscoveryOauthResourceResolve := HttpFetch

namespace DiscoveryOauthResourceResolve

def new (url : Url) : DiscoveryOauthResourceResolve := HttpFetch.new oauthRequest url

variable [SerdeCrate]

def finish : HttpSendEnd → Except OauthResolveError DiscoveryOauthResourceMetadata :=
  oauthFinish SerdeCrate.parseResourceMetadata

def resume : DiscoveryOauthResourceResolve → Option Bytes → Step DiscoveryYield
    DiscoveryOauthResourceResolve (Except OauthResolveError DiscoveryOauthResourceMetadata) :=
  HttpFetch.resume finish

def program (url : Url) : Protocol (Except OauthResolveError DiscoveryOauthResourceMetadata) :=
  HttpFetch.program oauthRequest finish url

variable [DomainCrate]

def toProc (self : DiscoveryOauthResourceResolve) :
    ProtocolRun (Except OauthResolveError DiscoveryOauthResourceMetadata) :=
  HttpFetch.toProc oauthRequest finish self

theorem refines : Refines resume toProc := HttpFetch.refines finish fun _ => rfl

theorem toProc_new (url : Url) : (toProc (new url)).resume none = drive exchanges (program url) :=
  HttpFetch.toProc_new oauthRequest finish url

end DiscoveryOauthResourceResolve

abbrev ProbeAuthResult : Type := Except String (List String)

abbrev DiscoveryProbeAuth := DiscoveryHttpWalk

namespace DiscoveryProbeAuth

def new (target : Url) : DiscoveryProbeAuth := DiscoveryHttpWalk.new (HttpRequest.get target)

def finish : WalkResult → ProbeAuthResult
  | .ok none => .ok []
  | .ok (some output) => .ok (IoHttpCrate.challenges output.response)
  | .error err => .error err

def resume (self : DiscoveryProbeAuth) (arg : Option Bytes) :
    Step DiscoveryYield DiscoveryProbeAuth ProbeAuthResult :=
  (DiscoveryHttpWalk.resume self arg).mapResult finish

def program (target : Url) : Protocol ProbeAuthResult :=
  DiscoveryHttpWalk.program .schemes (HttpRequest.get target) >>= fun result => .pure (finish result)

variable [DomainCrate]

def toProc (self : DiscoveryProbeAuth) : ProtocolRun ProbeAuthResult :=
  (DiscoveryHttpWalk.toProc .schemes self).andThen fun result => .pure (finish result)

theorem refines : Refines resume toProc := (DiscoveryHttpWalk.refines .schemes).mapResult finish

theorem toProc_new (target : Url) :
    (toProc (new target)).resume none = drive exchanges (program target) := by
  rw [toProc, program, new, Proc.resume_andThen, DiscoveryHttpWalk.toProc_new, drive_bind]

omit [DomainCrate] in
theorem emits_moved {ε : Type} {exec : (q : Exchange) → List ε → Option q.Answer → Prop}
    {url next : Url} {es fs : List ε} {moved output : HttpWellKnownOutput}
    (h : exec (.hop .schemes 0 (HttpRequest.get url)) es (some (.ok moved)))
    (hmoved : moved.redirectUrl = some next)
    (h' : exec (.hop .schemes 1 (HttpRequest.get next)) fs (some (.ok output)))
    (hstay : output.redirectUrl = none) :
    (program url).Emits exec (es ++ (fs ++ []))
      (some (.ok (IoHttpCrate.challenges output.response))) := by
  unfold program DiscoveryHttpWalk.program
  rw [DiscoveryHttpWalk.programFrom]
  refine .answered h ?_
  simp only [hmoved]
  rw [if_neg (by decide), DiscoveryHttpWalk.programFrom]
  refine .answered h' ?_
  simp only [hstay]
  exact .pure _

end DiscoveryProbeAuth
end
end PimDiscovery
