import PimDiscovery.Text

/-! What the program reads of the crates it depends on: `url`, `io-http`, `domain` and `psl`. Their data
types are written out, their functions are parameters. -/

namespace PimDiscovery

abbrev Bytes := List UInt8

structure Url where
  scheme : String
  username : String
  password : Option String
  host : Option String
  port : Option UInt16
  path : String
  query : Option String
  fragment : Option String
  deriving DecidableEq, Repr

/-- The explicit port, else the default one of the schemes that have one. -/
def Url.portOrKnownDefault (url : Url) : Option UInt16 :=
  match url.port with
  | some port => some port
  | none =>
    match url.scheme with
    | "http" | "ws" => some 80
    | "https" | "wss" => some 443
    | "ftp" => some 21
    | _ => none

class UrlCrate where
  parse : String → Except String Url
  join : Url → String → Except String Url
  asStr : Url → String
  /-- The path `set_path` leaves in the URL. -/
  encodePath : Url → String → String
  /-- The query that `query_pairs_mut().append_pair` leaves in a URL with the given one. -/
  appendPair : Option String → String → String → String

section
variable [UrlCrate]

def Url.setPath (url : Url) (path : String) : Url := { url with path := UrlCrate.encodePath url path }

@[simp] theorem Url.setPath_scheme (url : Url) (path : String) :
    (url.setPath path).scheme = url.scheme := rfl

end

structure HttpRequest where
  method : String
  url : Url
  headers : List (String × String)
  body : Bytes
  deriving DecidableEq

def HttpRequest.get (url : Url) : HttpRequest := { method := "GET", url, headers := [], body := [] }

def HttpRequest.header (request : HttpRequest) (name value : String) : HttpRequest :=
  { request with headers := request.headers ++ [(name, value)] }

structure HttpResponse where
  status : Nat
  headers : List (String × String)
  body : Bytes
  deriving DecidableEq

def HttpResponse.isSuccess (response : HttpResponse) : Bool :=
  200 ≤ response.status && response.status ≤ 299

/-- What a coroutine hands back on one resume: `HttpCoroutineState` of `io-http`. -/
inductive HttpCoroutineState (Y R : Type) where
  | yielded (y : Y)
  | complete (r : R)

inductive HttpYield where
  | wantsRead
  | wantsWrite (bytes : Bytes)

inductive HttpSendYield where
  | wantsRead
  | wantsWrite (bytes : Bytes)
  | wantsRedirect (url : Url) (response : HttpResponse)

structure HttpWellKnownOutput where
  redirectUrl : Option Url
  response : HttpResponse
  deriving DecidableEq

/-- The `io-http` coroutines; the error of each is kept as its text. -/
class IoHttpCrate where
  Send : Type
  newSend : HttpRequest → Send
  resumeSend : Send → Option Bytes →
    HttpCoroutineState HttpSendYield (Except String HttpResponse) × Send
  WellKnown : Type
  newWellKnown : HttpRequest → WellKnown
  resumeWellKnown : WellKnown → Option Bytes →
    HttpCoroutineState HttpYield (Except String HttpWellKnownOutput) × WellKnown
  /-- `Http11WellKnown::prepare_request` of an origin and a registered service name. -/
  prepareRequest : String → String → Except String HttpRequest
  /-- The lowercased schemes of `HttpResponse::challenges`. -/
  challenges : HttpResponse → List String

/-- A DNS name, as far as it is read: its text and whether it is the root. -/
structure DnsName where
  text : String
  isRoot : Bool
  deriving DecidableEq, Repr

inductive QType where
  | a | mx | soa | srv | txt
  deriving DecidableEq, Repr

structure Srv where
  priority : UInt16
  weight : UInt16
  port : UInt16
  name : DnsName
  deriving DecidableEq, Repr

structure Mx where
  preference : UInt16
  exchange : DnsName
  deriving DecidableEq, Repr

inductive RecordData where
  | txt (strings : List Bytes)
  | srv (srv : Srv)
  | mx (mx : Mx)
  | cname (name : DnsName)
  | other
  deriving DecidableEq, Repr

structure Record where
  rname : DnsName
  rdata : RecordData
  deriving DecidableEq, Repr

/-- An item the message parser iterates over; `other` is an error or another section's record. -/
inductive MessageItem where
  | answer (record : Record)
  | other
  deriving DecidableEq, Repr

class DomainCrate where
  Name : Type
  parseName : String → Except String Name
  /-- The query message of one question, with a fixed header. -/
  buildQuestion : QType → Name → Except String Bytes
  parseMessage : Bytes → Except String (List MessageItem)
  /-- The order of names, the tie-break of `Mx::cmp`. -/
  compareNames : DnsName → DnsName → Ordering

/-- `psl::domain_str`: the registrable domain of a name. -/
class PslCrate where
  domainStr : String → Option String

end PimDiscovery
