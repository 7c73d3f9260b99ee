import PimDiscovery.PlainNet
import PimDiscovery.Shared.Dns
import PimDiscovery.Shared.Http

/-! PACC: the document is fetched, then accepted only if a TXT record of the domain holds its
digest. -/

namespace PimDiscovery
open Interaction

/-- `sha2` and `base64_codec`: the decoder gives what it read and whether it read it cleanly. -/
class DigestCrate where
  sha256 : Bytes → Bytes
  decodeBase64 : Bytes → Bytes × Bool

inductive DiscoveryPaccError where
  | invalidUrl (err domain : String)
  | noValidTxtRecord
  | json (err : String)
  | http (err : DiscoveryHttpGetError)
  | dns (err : DnsLookupError)
  deriving DecidableEq

abbrev PaccResult : Type := Except DiscoveryPaccError DiscoveryPaccConfig

structure PaccTags where
  v : Option String
  a : Option String
  d : Option String

namespace PaccTags

/-- Reads one `;`-separated tag, over what the tags before it gave. -/
def read (tags : PaccTags) (tag : String) : PaccTags :=
  match Text.splitOnce tag '=' with
  | none => tags
  | some (name, val) =>
    if Text.eqIgnoreAsciiCase (Text.trim name) "v" then { tags with v := some (Text.trim val) }
    else if Text.eqIgnoreAsciiCase (Text.trim name) "a" then { tags with a := some (Text.trim val) }
    else if Text.eqIgnoreAsciiCase (Text.trim name) "d" then { tags with d := some (Text.trim val) }
    else tags

def ofConfig (config : String) : PaccTags :=
  (Text.split config ';').foldl read { v := none, a := none, d := none }

end PaccTags

section
variable [DigestCrate]

def vouches (body : Bytes) (record : List Bytes) : Bool :=
  match Text.fromUtf8 record.flatten with
  | none => false
  | some config =>
    match PaccTags.ofConfig config with
    -- All three tags are needed, in any order.
    | { v := some v, a := some a, d := some d } =>
      if !Text.eqIgnoreAsciiCase v "UAAC1" then false
      else if !Text.eqIgnoreAsciiCase a "sha256" then false
      else
        let (expected, clean) := DigestCrate.decodeBase64 (Text.bytes d)
        if !clean then false else expected == DigestCrate.sha256 body
    | _ => false

variable [SerdeCrate]

/-- Goes through the records up to the first that vouches for `body`. -/
def verifyRecords (body : Bytes) : List (List Bytes) → PaccResult
  | [] => .error .noValidTxtRecord
  | record :: records =>
    -- A record about something else is no error; the search goes on.
    if !vouches body record then verifyRecords body records
    else
      match SerdeCrate.parsePacc body with
      | .ok config => .ok config
      -- A document that is vouched for and does not parse ends it.
      | .error err => .error (.json err)

end

inductive PaccState where
  | get | verify | done

structure DiscoveryPacc [IoHttpCrate] where
  state : PaccState
  fetch : DiscoveryHttpGet
  verify : DiscoveryDnsTxt
  rawBody : Bytes
  /-- The lookup is not begun before the fetch is over. -/
  fresh : state = .get → verify = DiscoveryDnsTxt.new verify.domain verify.resolver

section
variable [UrlCrate] [DomainCrate] [IoHttpCrate] [SerdeCrate] [DigestCrate]

namespace DiscoveryPacc

def url (domain : String) : Except DiscoveryPaccError Url :=
  let d := Text.trimMatches domain '.'
  match UrlCrate.parse
      ("https://ua-auto-config." ++ d ++ "/.well-known/user-agent-configuration.json") with
  | .ok url => .ok url
  | .error err => .error (.invalidUrl err d)

def txtQname (domain : String) : String := "_ua-auto-config." ++ Text.trimMatches domain '.'

def new (domain : String) (resolver : Url) : Except DiscoveryPaccError DiscoveryPacc :=
  match url domain with
  | .error err => .error err
  | .ok url => .ok
      { state := .get, fetch := DiscoveryHttpGet.new url
        verify := DiscoveryDnsTxt.new (txtQname domain) resolver, rawBody := []
        fresh := fun _ => rfl }

def finish (body : Bytes) : Except DnsLookupError (List (List Bytes)) → PaccResult
  | .error err => .error (.dns err)
  | .ok records => verifyRecords body records

def resumeVerify (self : DiscoveryPacc) (rawBody : Bytes) (arg : Option Bytes) :
    Step DiscoveryYield DiscoveryPacc PaccResult :=
  match DiscoveryDnsTxt.resume self.verify arg with
  | .yielded y verify => .yielded y { self with state := .verify, verify, rawBody, fresh := nofun }
  | .complete result => .complete (finish rawBody result)
  | .panicked => .panicked

def resume (self : DiscoveryPacc) (arg : Option Bytes) :
    Step DiscoveryYield DiscoveryPacc PaccResult :=
  match _hstate : self.state with
  | .get =>
    match DiscoveryHttpGet.resume self.fetch arg with
    | .yielded y fetch => .yielded y { self with fetch }
    | .complete (.ok bytes) => self.resumeVerify bytes none
    | .complete (.error err) => .complete (.error (.http err))
    | .panicked => .panicked
  | .verify => self.resumeVerify self.rawBody arg
  | .done => .panicked

/-! The program the states run through. -/

def afterFetch (verify : Protocol (Except DnsLookupError (List (List Bytes)))) :
    Except DiscoveryHttpGetError Bytes → Protocol PaccResult
  | .ok body => verify >>= fun result => .pure (finish body result)
  | .error err => .pure (.error (.http err))

def program (url : Url) (domain : String) (resolver : Url) : Protocol PaccResult :=
  DiscoveryHttpGet.program url >>= afterFetch (DiscoveryDnsTxt.program (txtQname domain) resolver)

def toProc (self : DiscoveryPacc) : ProtocolRun PaccResult :=
  match self.state with
  | .get =>
    (DiscoveryHttpGet.toProc self.fetch).andThen
      (afterFetch (DiscoveryDnsTxt.program self.verify.domain self.verify.resolver))
  | .verify =>
    (DiscoveryDnsTxt.toProc self.verify).andThen fun result => .pure (finish self.rawBody result)
  | .done => .dead

omit [UrlCrate] in
theorem resumeVerify_toProc (self : DiscoveryPacc) (rawBody : Bytes) (arg : Option Bytes) :
    (self.resumeVerify rawBody arg).mapState toProc =
      ((DiscoveryDnsTxt.toProc self.verify).andThen fun result =>
        .pure (finish rawBody result)).resume arg := by
  rw [resumeVerify, Proc.resume_andThen, ← DiscoveryDnsTxt.refines self.verify arg]
  cases DiscoveryDnsTxt.resume self.verify arg <;> rfl

omit [UrlCrate] in
theorem refines : Refines resume toProc := by
  intro self arg
  obtain ⟨state, fetch, verify, rawBody, fresh⟩ := self
  cases state with
  | get =>
    simp only [resume, toProc, Proc.resume_andThen, ← DiscoveryHttpGet.refines fetch arg]
    rcases DiscoveryHttpGet.resume fetch arg with _ | (_ | body) | _
    · rfl
    · rfl
    · simp only [resumeVerify_toProc, Proc.resume_andThen, Step.mapState_complete, Step.andThen,
        afterFetch, drive_bind]
      rw [fresh rfl, DiscoveryDnsTxt.toProc_new]
      rfl
    · rfl
  | verify => exact resumeVerify_toProc _ rawBody arg
  | done => rfl

theorem toProc_new {domain : String} {resolver start : Url} {self : DiscoveryPacc}
    (hurl : url domain = .ok start) (hnew : new domain resolver = .ok self) :
    (toProc self).resume none = drive exchanges (program start domain resolver) := by
  rw [new, hurl] at hnew
  obtain rfl := Except.ok.inj hnew
  simp only [toProc, program, Proc.resume_andThen, drive_bind, DiscoveryHttpGet.toProc_new]
  rfl

end DiscoveryPacc
end
end PimDiscovery
