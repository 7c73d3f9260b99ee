import PimDiscovery.PlainUrl
import PimDiscovery.Documents

/-! An `io-http`, a `domain`, a `psl` and a `serde` crate for concrete runs: requests and responses as HTTP/1.1
text that comes in one read, DNS answers that neither repeat the question nor compress names, and
documents without content. -/

namespace PimDiscovery

namespace PlainHttp

def render (request : HttpRequest) : Bytes :=
  Text.bytes (request.method ++ " " ++ request.url.path ++ " HTTP/1.1\r\n" ++
    String.join ((("Host", request.url.host.getD "") :: request.headers).map fun header =>
      header.1 ++ ": " ++ header.2 ++ "\r\n") ++ "\r\n") ++ request.body

def parseHeader (line : String) : Option (String × String) :=
  (Text.splitOnce line ':').map fun header => (Text.toAsciiLowercase header.1, Text.trim header.2)

def parseResponse (bytes : Bytes) : Except String HttpResponse :=
  match Text.fromUtf8 bytes with
  | none => .error "invalid response"
  | some text =>
    match (Text.split text '\n').map (Text.trimEndMatches · '\r') with
    | [] => .error "empty response"
    | statusLine :: rest =>
      match PlainUrl.parsePort ((Text.split statusLine ' ').getD 1 "").toList with
      | none => .error "invalid status"
      | some status => .ok
          { status
            headers := (rest.takeWhile (· ≠ "")).filterMap parseHeader
            body := Text.bytes (String.join ((rest.dropWhile (· ≠ "")).drop 1)) }

def header (response : HttpResponse) (name : String) : Option String :=
  (response.headers.find? (·.1 == name)).map Prod.snd

def redirect (url : Url) (response : HttpResponse) : Option Url :=
  if 300 ≤ response.status && response.status ≤ 399 then
    ((header response "location").map (PlainUrl.join url)).bind Except.toOption
  else none

inductive State where
  | write (request : HttpRequest)
  | written (request : HttpRequest)
  | read (request : HttpRequest)

def resumeSend (state : State) (arg : Option Bytes) :
    HttpCoroutineState HttpSendYield (Except String HttpResponse) × State :=
  match state, arg with
  | .write request, _ => (.yielded (.wantsWrite (render request)), .written request)
  | .written request, none => (.yielded .wantsRead, .read request)
  | .read request, some (byte :: bytes) =>
    match parseResponse (byte :: bytes) with
    | .error err => (.complete (.error err), state)
    | .ok response =>
      match redirect request.url response with
      | some url => (.yielded (.wantsRedirect url response), state)
      | none => (.complete (.ok response), state)
  | _, _ => (.complete (.error "unexpected EOF"), state)

def resumeWellKnown (state : State) (arg : Option Bytes) :
    HttpCoroutineState HttpYield (Except String HttpWellKnownOutput) × State :=
  match resumeSend state arg with
  | (.yielded .wantsRead, state) => (.yielded .wantsRead, state)
  | (.yielded (.wantsWrite bytes), state) => (.yielded (.wantsWrite bytes), state)
  | (.yielded (.wantsRedirect url response), state) =>
    (.complete (.ok { redirectUrl := some url, response }), state)
  | (.complete (.ok response), state) => (.complete (.ok { redirectUrl := none, response }), state)
  | (.complete (.error err), state) => (.complete (.error err), state)

end PlainHttp

@[reducible] def plainHttp : IoHttpCrate where
  Send := PlainHttp.State
  newSend := .write
  resumeSend := PlainHttp.resumeSend
  WellKnown := PlainHttp.State
  newWellKnown := .write
  resumeWellKnown := PlainHttp.resumeWellKnown
  prepareRequest origin service :=
    (PlainUrl.parse origin).map fun url =>
      HttpRequest.get { url with path := "/.well-known/" ++ service }
  challenges response :=
    (response.headers.filter (·.1 == "www-authenticate")).map fun header =>
      Text.toAsciiLowercase ((Text.split header.2 ' ').headD "")

namespace PlainDns

def encodeName (name : String) : Bytes :=
  ((Text.split name '.').map fun label =>
    UInt8.ofNat label.toUTF8.size :: Text.bytes label).flatten

def qtypeCode : QType → UInt8
  | .a => 1
  | .mx => 15
  | .soa => 6
  | .srv => 33
  | .txt => 16

def readName : Nat → Bytes → Option (List String × Bytes)
  | _, [] => none
  | 0, _ => none
  | n + 1, len :: rest =>
    if len = 0 then some ([], rest)
    else if 64 ≤ len then none
    else (readName n (rest.drop len.toNat)).map fun (labels, after) =>
      ((Text.fromUtf8 (rest.take len.toNat)).getD "" :: labels, after)

def nameOf (labels : List String) : DnsName :=
  { text := ".".intercalate labels, isRoot := labels.isEmpty }

def charStrings : Nat → Bytes → List Bytes
  | _, [] => []
  | 0, _ => []
  | n + 1, len :: rest => rest.take len.toNat :: charStrings n (rest.drop len.toNat)

def word (hi lo : UInt8) : Nat := hi.toNat * 256 + lo.toNat

def readData (rtype : Nat) (rdata : Bytes) : RecordData :=
  match rtype, rdata with
  | 16, rdata => .txt (charStrings rdata.length rdata)
  | 33, p₁ :: p₂ :: w₁ :: w₂ :: o₁ :: o₂ :: target =>
    match readName target.length target with
    | some (labels, _) => .srv
        { priority := UInt16.ofNat (word p₁ p₂), weight := UInt16.ofNat (word w₁ w₂)
          port := UInt16.ofNat (word o₁ o₂), name := nameOf labels }
    | none => .other
  | _, _ => .other

def readAnswers : Nat → Bytes → Option (List MessageItem)
  | 0, _ => some []
  | n + 1, bytes =>
    match readName bytes.length bytes with
    | some (labels, t₁ :: t₂ :: _ :: _ :: _ :: _ :: _ :: _ :: l₁ :: l₂ :: rest) =>
      (readAnswers n (rest.drop (word l₁ l₂))).map fun items =>
        .answer { rname := nameOf labels, rdata := readData (word t₁ t₂) (rest.take (word l₁ l₂)) } ::
          items
    | _ => none

def parseMessage : Bytes → Except String (List MessageItem)
  | _ :: _ :: _ :: _ :: 0 :: 0 :: c₁ :: c₂ :: 0 :: 0 :: 0 :: 0 :: answers =>
    match readAnswers (word c₁ c₂) answers with
    | some items => .ok items
    | none => .error "form error"
  | _ => .error "short message"

def txtAnswer (name : String) (records : List String) : Bytes :=
  [0, 1, 129, 128, 0, 0, 0, UInt8.ofNat records.length, 0, 0, 0, 0] ++
    (records.map fun record =>
      encodeName name ++ [0, 16, 0, 1, 0, 0, 0, 60, 0, UInt8.ofNat (record.toUTF8.size + 1),
        UInt8.ofNat record.toUTF8.size] ++ Text.bytes record).flatten

def srvAnswer (name : String) (records : List (UInt8 × UInt8 × UInt16 × String)) : Bytes :=
  [0, 1, 129, 128, 0, 0, 0, UInt8.ofNat records.length, 0, 0, 0, 0] ++
    (records.map fun (priority, weight, port, target) =>
      encodeName name ++ [0, 33, 0, 1, 0, 0, 0, 60, 0, UInt8.ofNat ((encodeName target).length + 6),
        0, priority, 0, weight, UInt8.ofNat (port.toNat / 256), UInt8.ofNat port.toNat] ++
        encodeName target).flatten

end PlainDns

@[reducible] def plainDns : DomainCrate where
  Name := String
  parseName name := if Text.endsWith name "." then .ok name else .error "relative name"
  buildQuestion qtype name :=
    .ok ([0, 1, 1, 0, 0, 1, 0, 0, 0, 0, 0, 0] ++ PlainDns.encodeName name ++
      [0, PlainDns.qtypeCode qtype, 0, 1])
  parseMessage := PlainDns.parseMessage
  compareNames a b := compareOfLessAndEq a.text b.text

/-- The last two labels of a name, as under a one-label public suffix. -/
@[reducible] def plainPsl : PslCrate where
  domainStr name :=
    match (Text.split name '.').reverse with
    | top :: second :: _ => some (second ++ "." ++ top)
    | _ => none

@[reducible] def plainSerde : SerdeCrate where
  parseValue _ := .error "EOF while parsing a value"
  parsePacc _ := .error "EOF while parsing a value"
  parseAutoconfig _ := .error "missing field"
  parseServerMetadata _ := .error "EOF while parsing a value"
  parseResourceMetadata _ := .error "EOF while parsing a value"

end PimDiscovery
