import PimDiscovery.Rfc6764.Discover
import PimDiscovery.Shared.Walk

/-! The three ways RFC 6764 reaches a context root: the TXT `path`, a check of a candidate URL, and
the `.well-known` probe. -/

namespace PimDiscovery
open Interaction

/-- The `path` value a TXT record publishes, if it is there, readable and not empty. -/
def recordPath (strings : List Bytes) : Option String :=
  match Text.stripBytes (Text.bytes "path=") strings.flatten with
  | none => none
  | some value =>
    match Text.fromUtf8 value with
    | none => none
    | some path => if (Text.trim path).isEmpty then none else some (Text.trim path)

variable [DomainCrate] [IoHttpCrate]

abbrev DiscoveryWebdavTxt := DiscoveryDnsTxt

abbrev WebdavTxtResult : Type := Except DnsLookupError (Option String)

namespace DiscoveryWebdavTxt

def new (qname : String) (resolver : Url) : DiscoveryWebdavTxt := DiscoveryDnsTxt.new qname resolver

def finish : Except DnsLookupError (List (List Bytes)) → WebdavTxtResult
  | .error err => .error err
  | .ok records => .ok (records.findSome? recordPath)

def resume (self : DiscoveryWebdavTxt) (arg : Option Bytes) :
    Step DiscoveryYield DiscoveryWebdavTxt WebdavTxtResult :=
  (DiscoveryDnsTxt.resume self arg).mapResult finish

def program (qname : String) (resolver : Url) : Protocol WebdavTxtResult :=
  DiscoveryDnsTxt.program qname resolver >>= fun records => .pure (finish records)

def toProc (self : DiscoveryWebdavTxt) : ProtocolRun WebdavTxtResult :=
  (DiscoveryDnsTxt.toProc self).andThen fun records => .pure (finish records)

theorem refines : Refines resume toProc := DiscoveryDnsTxt.refines.mapResult finish

theorem toProc_new (qname : String) (resolver : Url) (arg : Option Bytes) :
    (toProc (new qname resolver)).resume arg = drive exchanges (program qname resolver) := by
  rw [toProc, program, Proc.resume_andThen, drive_bind]
  rfl

omit [IoHttpCrate] in
theorem always {asks : Exchange → Prop} {allowed : ∀ q : Exchange, q.Answer → Prop}
    {qname : String} {resolver : Url} (h : AsksDns asks .txt resolver) :
    (program qname resolver).Always asks allowed fun result => ∀ path, result = .ok (some path) →
      ∃ answer, allowed (.dns .txt qname resolver) answer ∧
        finish (DnsLookup.finish readTxt qname answer) = .ok (some path) := by
  refine (DnsLookup.always .txt readTxt h).bind fun records hrecords path hpath => ?_
  cases records with
  | error err => exact nomatch hpath
  | ok records =>
    obtain ⟨answer, ha, hanswer⟩ := hrecords records rfl
    exact ⟨answer, ha, hanswer ▸ hpath⟩

end DiscoveryWebdavTxt

def propfindBody : String :=
  "<?xml version=\"1.0\" encoding=\"utf-8\"?><propfind xmlns=\"DAV:\"><prop>" ++
    "<current-user-principal/></prop></propfind>"

def propfind (url : Url) : HttpRequest where
  method := "PROPFIND"
  url := url
  headers := [("Depth", "0"), ("Content-Type", "application/xml; charset=utf-8")]
  body := Text.bytes propfindBody

def isContextRoot (response : HttpResponse) : Bool :=
  match response.status with
  | 207 => true
  | 401 => !(IoHttpCrate.challenges response).isEmpty
  | _ => false

abbrev CandidateResult : Type := Except String (Option Url)

abbrev DiscoveryDavContext := DiscoveryHttpWalk

namespace DiscoveryDavContext

def new (url : Url) : DiscoveryDavContext := DiscoveryHttpWalk.new (propfind url)

def finish : WalkResult → CandidateResult
  | .ok (some output) => if isContextRoot output.response then .ok (some output.url) else .ok none
  | .ok none => .ok none
  | .error err => .error err

def resume (self : DiscoveryDavContext) (arg : Option Bytes) :
    Step DiscoveryYield DiscoveryDavContext CandidateResult :=
  (DiscoveryHttpWalk.resume self arg).mapResult finish

variable (walk : WalkRole)

def program (url : Url) : Protocol CandidateResult :=
  DiscoveryHttpWalk.program walk (propfind url) >>= fun result => .pure (finish result)

def toProc (self : DiscoveryDavContext) : ProtocolRun CandidateResult :=
  (DiscoveryHttpWalk.toProc walk self).andThen fun result => .pure (finish result)

theorem refines : Refines resume (toProc walk) := (DiscoveryHttpWalk.refines walk).mapResult finish

theorem toProc_new (url : Url) :
    (toProc walk (new url)).resume none = drive exchanges (program walk url) := by
  rw [toProc, program, new, Proc.resume_andThen, DiscoveryHttpWalk.toProc_new, drive_bind]

omit [DomainCrate] in
theorem always {asks : Exchange → Prop} {allowed : ∀ q : Exchange, q.Answer → Prop}
    {good : Url → Prop} (hw : WalksStay asks allowed good) {url : Url} (h : good url) :
    (program walk url).Always asks allowed
      fun result => ∀ root, result = .ok (some root) → good root := by
  refine (DiscoveryHttpWalk.always walk hw h).bind fun result hresult => ?_
  rcases result with err | _ | output
  · simp [Prog.Always, finish]
  · simp [Prog.Always, finish]
  · simp only [Prog.Always, finish]
    split
    · simpa using hresult output rfl
    · simp

end DiscoveryDavContext

inductive DiscoveryWellKnown where
  | walk (walk : DiscoveryHttpWalk)
  | failed (err : Option String)

namespace DiscoveryWellKnown
variable [UrlCrate]

def new (origin : Url) (service : DiscoveryDavService) : DiscoveryWellKnown :=
  match IoHttpCrate.prepareRequest (UrlCrate.asStr origin) service.serviceName with
  | .ok request => .walk (DiscoveryHttpWalk.new (propfind request.url))
  | .error err => .failed (some err)

def finish : WalkResult → CandidateResult
  | .ok (some output) =>
    if output.hops = 0 then .ok none
    else if !isContextRoot output.response then .ok none
    else .ok (some output.url)
  | .ok none => .ok none
  | .error err => .error err

def resume (self : DiscoveryWellKnown) (arg : Option Bytes) :
    Step DiscoveryYield DiscoveryWellKnown CandidateResult :=
  match self with
  | .walk probe => ((DiscoveryHttpWalk.resume probe arg).mapState .walk).mapResult finish
  | .failed (some err) => .complete (.error err)
  | .failed none => .panicked

def program (origin : Url) (service : DiscoveryDavService) : Protocol CandidateResult :=
  match IoHttpCrate.prepareRequest (UrlCrate.asStr origin) service.serviceName with
  | .ok request =>
    DiscoveryHttpWalk.program .wellKnown (propfind request.url) >>= fun result =>
      .pure (finish result)
  | .error err => .pure (.error err)

def toProc : DiscoveryWellKnown → ProtocolRun CandidateResult
  | .walk probe =>
    (DiscoveryHttpWalk.toProc .wellKnown probe).andThen fun result => .pure (finish result)
  | .failed (some err) => .enter (.pure (.error err))
  | .failed none => .dead

omit [UrlCrate] in
theorem refines : Refines resume toProc := by
  intro self arg
  match self with
  | .walk probe =>
    simp only [toProc, resume, Proc.resume_andThen, ← DiscoveryHttpWalk.refines .wellKnown probe arg]
    cases DiscoveryHttpWalk.resume probe arg <;> rfl
  | .failed (some err) => rfl
  | .failed none => rfl

theorem toProc_new (origin : Url) (service : DiscoveryDavService) :
    (toProc (new origin service)).resume none = drive exchanges (program origin service) := by
  unfold new program
  cases IoHttpCrate.prepareRequest (UrlCrate.asStr origin) service.serviceName with
  | error err => rfl
  | ok request =>
    simp only [toProc, Proc.resume_andThen, DiscoveryHttpWalk.toProc_new, drive_bind]

omit [DomainCrate] in
theorem always {asks : Exchange → Prop} {allowed : ∀ q : Exchange, q.Answer → Prop}
    {good : Url → Prop} (hw : WalksStay asks allowed good) {origin : Url}
    {service : DiscoveryDavService}
    (h : ∀ request, IoHttpCrate.prepareRequest (UrlCrate.asStr origin) service.serviceName =
      .ok request → good request.url) :
    (program origin service).Always asks allowed
      fun result => ∀ root, result = .ok (some root) → good root := by
  unfold program
  cases hp : IoHttpCrate.prepareRequest (UrlCrate.asStr origin) service.serviceName with
  | error err => simp [Prog.Always]
  | ok request =>
    have hwalk := DiscoveryHttpWalk.always .wellKnown hw
      (show good (propfind request.url).url from h request hp)
    refine hwalk.bind fun result hresult => ?_
    rcases result with err | _ | output
    · simp [Prog.Always, finish]
    · simp [Prog.Always, finish]
    · simp only [Prog.Always, finish]
      split
      · simp
      · split
        · simp
        · simpa using hresult output rfl

end DiscoveryWellKnown
end PimDiscovery
