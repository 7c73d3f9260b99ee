import PimDiscovery.Documents
import PimDiscovery.Shared.Http

/-! The fetch of one autoconfig document, and the URLs it is tried at. -/

namespace PimDiscovery
open Interaction

inductive DiscoveryIspError where
  | utf8
  | xml (err : String)
  | http (err : DiscoveryHttpGetError)
  deriving DecidableEq

abbrev IspResult : Type := Except DiscoveryIspError DiscoveryAutoconfig

abbrev DiscoveryIsp [IoHttpCrate] := DiscoveryHttpGet

namespace DiscoveryIsp

section
variable [UrlCrate]

def httpScheme (secure : Bool) : String := if secure then "https" else "http"

def mainUrl (localPart domain : String) (secure : Bool) : Except String Url :=
  let domain := Text.trimMatches domain '.'
  UrlCrate.parse (httpScheme secure ++ "://autoconfig." ++ domain ++
    "/mail/config-v1.1.xml?emailaddress=" ++ localPart ++ "@" ++ domain)

def hostUrl (email host : String) (secure : Bool) : Except String Url :=
  let host := Text.trimMatches host '.'
  (UrlCrate.parse (httpScheme secure ++ "://" ++ host ++ "/mail/config-v1.1.xml")).map fun url =>
    { url with query := some (UrlCrate.appendPair url.query "emailaddress" email) }

def fallbackUrl (domain : String) (secure : Bool) : Except String Url :=
  let domain := Text.trimMatches domain '.'
  UrlCrate.parse (httpScheme secure ++ "://" ++ domain ++
    "/.well-known/autoconfig/mail/config-v1.1.xml")

def dbUrl (domain : String) (secure : Bool) : Except String Url :=
  let domain := Text.trimMatches domain '.'
  UrlCrate.parse (httpScheme secure ++ "://autoconfig.thunderbird.net/v1.1/" ++ domain)

end

variable [IoHttpCrate]

def new (url : Url) : DiscoveryIsp := DiscoveryHttpGet.new url

variable [SerdeCrate]

def finish : Except DiscoveryHttpGetError Bytes → IspResult
  | .error err => .error (.http err)
  | .ok bytes =>
    match Text.fromUtf8 bytes with
    | none => .error .utf8
    | some body =>
      match SerdeCrate.parseAutoconfig body with
      | .ok autoconfig => .ok autoconfig
      | .error err => .error (.xml err)

def resume (self : DiscoveryIsp) (arg : Option Bytes) :
    Step DiscoveryYield DiscoveryIsp IspResult :=
  (DiscoveryHttpGet.resume self arg).mapResult finish

def program (url : Url) : Protocol IspResult :=
  DiscoveryHttpGet.program url >>= fun result => .pure (finish result)

variable [DomainCrate]

def toProc (self : DiscoveryIsp) : ProtocolRun IspResult :=
  (DiscoveryHttpGet.toProc self).andThen fun result => .pure (finish result)

theorem refines : Refines resume toProc := DiscoveryHttpGet.refines.mapResult finish

theorem toProc_new (url : Url) : (toProc (new url)).resume none = drive exchanges (program url) := by
  rw [toProc, program, new, Proc.resume_andThen, DiscoveryHttpGet.toProc_new, drive_bind]

end DiscoveryIsp
end PimDiscovery
