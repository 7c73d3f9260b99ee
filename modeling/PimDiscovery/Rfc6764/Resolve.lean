import PimDiscovery.Rfc6764.Candidate

/-! The DAV resolver: SRV records fix the origin, then the TXT `path`, `.well-known` and the origin
itself are tried in this order. -/

namespace PimDiscovery
open Interaction

inductive DiscoveryDavResolveError where
  | txt (err : DnsLookupError)
  | wellKnown (err : String)
  | context (err : String)
  | invalidOrigin (raw err : String)
  | invalidPath (path err : String)
  | notFound (origin : Url)
  deriving DecidableEq

abbrev DavResolveResult : Type := Except DiscoveryDavResolveError Url

inductive Candidate where
  | txtPath | origin
  deriving DecidableEq, Repr

variable [UrlCrate] [DomainCrate] [IoHttpCrate]

inductive DavResolveState where
  | srv (srv : DiscoveryWebdavSrv)
  | txt (txt : DiscoveryWebdavTxt) (origin : Url)
  | wellKnown (probe : DiscoveryWellKnown) (origin : Url)
  | context (check : DiscoveryDavContext) (origin : Url) (candidate : Candidate)
  | done

structure DiscoveryDavResolve where
  service : DiscoveryDavService
  domain : String
  resolver : Url
  secureOnly : Bool
  state : DavResolveState

namespace DiscoveryDavResolve

def new (domain : String) (service : DiscoveryDavService) (resolver : Url) : DiscoveryDavResolve :=
  let domain := Text.trimMatches domain '.'
  { service, domain, resolver, secureOnly := false
    state := .srv (DiscoveryWebdavSrv.new domain resolver) }

def withSecureOnly (self : DiscoveryDavResolve) (secureOnly : Bool) : DiscoveryDavResolve :=
  { self with secureOnly }

def record (secureOnly : Bool) (secure plain : Option DiscoverySrvService) :
    Option (Bool × DiscoverySrvService) :=
  match secure, plain with
  | some secure, _ => some (true, secure)
  -- A plain record is passed over by a client that only goes over TLS.
  | none, some plain => if !secureOnly then some (false, plain) else none
  | none, none => none

def origin (domain : String) (record : Option (Bool × DiscoverySrvService)) :
    Except DiscoveryDavResolveError Url :=
  let (scheme, host, port) := match record with
    | some (true, srv) => ("https", srv.host, srv.port)
    | some (false, srv) => ("http", srv.host, srv.port)
    | none => ("https", domain, 443)
  match parseOrigin scheme host port with
  | .ok url => .ok url
  | .error (raw, err) => .error (.invalidOrigin raw err)

def serviceRecords (service : DiscoveryDavService) (report : DiscoveryWebdavSrvReport) :
    Option DiscoverySrvService × Option DiscoverySrvService :=
  match service with
  | .caldav => (report.caldavs, report.caldav)
  | .carddav => (report.carddavs, report.carddav)

section
variable (self : DiscoveryDavResolve)

def resumeOrigin (check : DiscoveryDavContext) (origin : Url) (arg : Option Bytes) :
    Step DiscoveryYield DiscoveryDavResolve DavResolveResult :=
  match DiscoveryDavContext.resume check arg with
  | .complete (.ok (some root)) => .complete (.ok root)
  | .complete (.ok none) => .complete (.error (.notFound origin))
  | .yielded y check => .yielded y { self with state := .context check origin .origin }
  | .complete (.error err) => .complete (.error (.context err))
  | .panicked => .panicked

def resumeWellKnown (probe : DiscoveryWellKnown) (origin : Url) (arg : Option Bytes) :
    Step DiscoveryYield DiscoveryDavResolve DavResolveResult :=
  match probe.resume arg with
  | .complete (.ok (some root)) => .complete (.ok root)
  | .complete (.ok none) => self.resumeOrigin (DiscoveryDavContext.new origin) origin none
  | .yielded y probe => .yielded y { self with state := .wellKnown probe origin }
  | .complete (.error err) => .complete (.error (.wellKnown err))
  | .panicked => .panicked

def resumeTxtPath (check : DiscoveryDavContext) (origin : Url) (arg : Option Bytes) :
    Step DiscoveryYield DiscoveryDavResolve DavResolveResult :=
  match DiscoveryDavContext.resume check arg with
  | .complete (.ok (some root)) => .complete (.ok root)
  | .complete (.ok none) =>
    self.resumeWellKnown (DiscoveryWellKnown.new origin self.service) origin none
  | .yielded y check => .yielded y { self with state := .context check origin .txtPath }
  | .complete (.error err) => .complete (.error (.context err))
  | .panicked => .panicked

def resumeTxt (txt : DiscoveryWebdavTxt) (origin : Url) (arg : Option Bytes) :
    Step DiscoveryYield DiscoveryDavResolve DavResolveResult :=
  match DiscoveryWebdavTxt.resume txt arg with
  | .complete (.ok (some path)) =>
    match UrlCrate.join origin path with
    | .ok root => self.resumeTxtPath (DiscoveryDavContext.new root) origin none
    | .error err => .complete (.error (.invalidPath path err))
  | .complete (.ok none) =>
    self.resumeWellKnown (DiscoveryWellKnown.new origin self.service) origin none
  | .yielded y txt => .yielded y { self with state := .txt txt origin }
  | .complete (.error err) => .complete (.error (.txt err))
  | .panicked => .panicked

def resumeSrv (srv : DiscoveryWebdavSrv) (arg : Option Bytes) :
    Step DiscoveryYield DiscoveryDavResolve DavResolveResult :=
  match DiscoveryWebdavSrv.resume srv arg with
  | .complete (.ok report) =>
    let (secure, plain) := serviceRecords self.service report
    let record := record self.secureOnly secure plain
    -- The TXT record stands under the name of the SRV record that was chosen.
    let txtQname := record.map fun record => self.service.srvQname record.1 self.domain
    match origin self.domain record with
    | .error err => .complete (.error err)
    | .ok origin =>
      match txtQname with
      | some qname => self.resumeTxt (DiscoveryWebdavTxt.new qname self.resolver) origin none
      | none => self.resumeWellKnown (DiscoveryWellKnown.new origin self.service) origin none
  | .yielded y srv => .yielded y { self with state := .srv srv }
  -- An unreachable resolver counts as one without a record.
  | .complete (.error _) =>
    match origin self.domain none with
    | .error err => .complete (.error err)
    | .ok origin => self.resumeWellKnown (DiscoveryWellKnown.new origin self.service) origin none
  | .panicked => .panicked

def resume (arg : Option Bytes) : Step DiscoveryYield DiscoveryDavResolve DavResolveResult :=
  match self.state with
  | .srv srv => self.resumeSrv srv arg
  | .txt txt origin => self.resumeTxt txt origin arg
  | .wellKnown probe origin => self.resumeWellKnown probe origin arg
  | .context check origin .txtPath => self.resumeTxtPath check origin arg
  | .context check origin .origin => self.resumeOrigin check origin arg
  | .done => .panicked

end

/-! The program the states run through. -/

def afterOrigin (origin : Url) : CandidateResult → Protocol DavResolveResult
  | .ok (some root) => .pure (.ok root)
  | .ok none => .pure (.error (.notFound origin))
  | .error err => .pure (.error (.context err))

def tryOrigin (origin : Url) : Protocol DavResolveResult :=
  DiscoveryDavContext.program .origin origin >>= afterOrigin origin

def afterWellKnown (origin : Url) : CandidateResult → Protocol DavResolveResult
  | .ok (some root) => .pure (.ok root)
  | .ok none => tryOrigin origin
  | .error err => .pure (.error (.wellKnown err))

def tryWellKnown (service : DiscoveryDavService) (origin : Url) : Protocol DavResolveResult :=
  DiscoveryWellKnown.program origin service >>= afterWellKnown origin

def afterTxtPath (service : DiscoveryDavService) (origin : Url) :
    CandidateResult → Protocol DavResolveResult
  | .ok (some root) => .pure (.ok root)
  | .ok none => tryWellKnown service origin
  | .error err => .pure (.error (.context err))

def afterTxt (service : DiscoveryDavService) (origin : Url) :
    WebdavTxtResult → Protocol DavResolveResult
  | .ok (some path) =>
    match UrlCrate.join origin path with
    | .ok root => DiscoveryDavContext.program .txtPath root >>= afterTxtPath service origin
    | .error err => .pure (.error (.invalidPath path err))
  | .ok none => tryWellKnown service origin
  | .error err => .pure (.error (.txt err))

def tryRecord (service : DiscoveryDavService) (domain : String) (resolver : Url)
    (record : Option (Bool × DiscoverySrvService)) : Protocol DavResolveResult :=
  match origin domain record with
  | .error err => .pure (.error err)
  | .ok origin =>
    match record.map fun record => service.srvQname record.1 domain with
    | some qname => DiscoveryWebdavTxt.program qname resolver >>= afterTxt service origin
    | none => tryWellKnown service origin

def afterSrv (service : DiscoveryDavService) (domain : String) (resolver : Url)
    (secureOnly : Bool) : WebdavSrvResult → Protocol DavResolveResult
  | .ok report =>
    tryRecord service domain resolver
      (record secureOnly (serviceRecords service report).1 (serviceRecords service report).2)
  | .error _ => tryRecord service domain resolver none

def program (domain : String) (service : DiscoveryDavService) (resolver : Url)
    (secureOnly : Bool) : Protocol DavResolveResult :=
  DiscoveryWebdavSrv.program (Text.trimMatches domain '.') resolver >>=
    afterSrv service (Text.trimMatches domain '.') resolver secureOnly

def toProc (self : DiscoveryDavResolve) : ProtocolRun DavResolveResult :=
  match self.state with
  | .srv srv =>
    (DiscoveryWebdavSrv.toProc srv).andThen
      (afterSrv self.service self.domain self.resolver self.secureOnly)
  | .txt txt origin => (DiscoveryWebdavTxt.toProc txt).andThen (afterTxt self.service origin)
  | .wellKnown probe origin => probe.toProc.andThen (afterWellKnown origin)
  | .context check origin .txtPath =>
    (DiscoveryDavContext.toProc .txtPath check).andThen (afterTxtPath self.service origin)
  | .context check origin .origin =>
    (DiscoveryDavContext.toProc .origin check).andThen (afterOrigin origin)
  | .done => .dead

section
variable (self : DiscoveryDavResolve)

theorem resumeOrigin_toProc (check : DiscoveryDavContext) (origin : Url) (arg : Option Bytes) :
    (self.resumeOrigin check origin arg).mapState toProc =
      ((DiscoveryDavContext.toProc .origin check).andThen (afterOrigin origin)).resume arg := by
  rw [resumeOrigin, Proc.resume_andThen, ← DiscoveryDavContext.refines .origin check arg]
  rcases DiscoveryDavContext.resume check arg with _ | (_ | (_ | _)) | _ <;> rfl

theorem resumeOrigin_new (origin : Url) :
    (self.resumeOrigin (DiscoveryDavContext.new origin) origin none).mapState toProc =
      drive exchanges (tryOrigin origin) := by
  rw [resumeOrigin_toProc, Proc.resume_andThen, DiscoveryDavContext.toProc_new, tryOrigin, drive_bind]

theorem resumeWellKnown_toProc (probe : DiscoveryWellKnown) (origin : Url) (arg : Option Bytes) :
    (self.resumeWellKnown probe origin arg).mapState toProc =
      (probe.toProc.andThen (afterWellKnown origin)).resume arg := by
  rw [resumeWellKnown, Proc.resume_andThen, ← DiscoveryWellKnown.refines probe arg]
  rcases probe.resume arg with _ | (_ | (_ | _)) | _
  · rfl
  · rfl
  · exact resumeOrigin_new self origin
  · rfl
  · rfl

theorem resumeWellKnown_new (origin : Url) :
    (self.resumeWellKnown (DiscoveryWellKnown.new origin self.service) origin none).mapState toProc =
      drive exchanges (tryWellKnown self.service origin) := by
  rw [resumeWellKnown_toProc, Proc.resume_andThen, DiscoveryWellKnown.toProc_new, tryWellKnown,
    drive_bind]

theorem resumeTxtPath_toProc (check : DiscoveryDavContext) (origin : Url) (arg : Option Bytes) :
    (self.resumeTxtPath check origin arg).mapState toProc =
      ((DiscoveryDavContext.toProc .txtPath check).andThen
        (afterTxtPath self.service origin)).resume arg := by
  rw [resumeTxtPath, Proc.resume_andThen, ← DiscoveryDavContext.refines .txtPath check arg]
  rcases DiscoveryDavContext.resume check arg with _ | (_ | (_ | _)) | _
  · rfl
  · rfl
  · exact resumeWellKnown_new self origin
  · rfl
  · rfl

theorem resumeTxt_toProc (txt : DiscoveryWebdavTxt) (origin : Url) (arg : Option Bytes) :
    (self.resumeTxt txt origin arg).mapState toProc =
      ((DiscoveryWebdavTxt.toProc txt).andThen (afterTxt self.service origin)).resume arg := by
  rw [resumeTxt, Proc.resume_andThen, ← DiscoveryWebdavTxt.refines txt arg]
  rcases DiscoveryWebdavTxt.resume txt arg with _ | (_ | (_ | path)) | _
  · rfl
  · rfl
  · exact resumeWellKnown_new self origin
  · simp only [Step.mapState_complete, Step.andThen, afterTxt]
    cases UrlCrate.join origin path with
    | error err => rfl
    | ok root =>
      simp only [resumeTxtPath_toProc, Proc.resume_andThen, DiscoveryDavContext.toProc_new, drive_bind]
  · rfl

theorem resumeTxt_new (qname : String) (origin : Url) :
    (self.resumeTxt (DiscoveryWebdavTxt.new qname self.resolver) origin none).mapState toProc =
      drive exchanges (DiscoveryWebdavTxt.program qname self.resolver >>= afterTxt self.service origin) := by
  rw [resumeTxt_toProc, Proc.resume_andThen, DiscoveryWebdavTxt.toProc_new, drive_bind]

theorem resumeSrv_toProc (srv : DiscoveryWebdavSrv) (arg : Option Bytes) :
    (self.resumeSrv srv arg).mapState toProc =
      ((DiscoveryWebdavSrv.toProc srv).andThen
        (afterSrv self.service self.domain self.resolver self.secureOnly)).resume arg := by
  rw [resumeSrv, Proc.resume_andThen, ← DiscoveryWebdavSrv.refines srv arg]
  rcases DiscoveryWebdavSrv.resume srv arg with _ | (_ | report) | _
  · rfl
  · simp only [Step.mapState_complete, Step.andThen, afterSrv, tryRecord, Option.map_none]
    cases origin self.domain none with
    | error err => rfl
    | ok origin => exact resumeWellKnown_new self origin
  · simp only [Step.mapState_complete, Step.andThen, afterSrv, tryRecord]
    cases origin self.domain _ with
    | error err => rfl
    | ok origin =>
      simp only
      cases Option.map _ _ with
      | none => exact resumeWellKnown_new self origin
      | some qname => exact resumeTxt_new self qname origin
  · rfl

end

theorem refines : Refines resume toProc := by
  intro self arg
  unfold resume toProc
  rcases self.state with srv | ⟨txt, origin⟩ | ⟨probe, origin⟩ | ⟨check, origin, _ | _⟩ | _
  · exact resumeSrv_toProc self srv arg
  · exact resumeTxt_toProc self txt origin arg
  · exact resumeWellKnown_toProc self probe origin arg
  · exact resumeTxtPath_toProc self check origin arg
  · exact resumeOrigin_toProc self check origin arg
  · rfl

theorem toProc_new (domain : String) (service : DiscoveryDavService) (resolver : Url)
    (secureOnly : Bool) (arg : Option Bytes) :
    (toProc ((new domain service resolver).withSecureOnly secureOnly)).resume arg =
      drive exchanges (program domain service resolver secureOnly) := by
  simp only [toProc, new, withSecureOnly, program, Proc.resume_andThen, drive_bind,
    DiscoveryWebdavSrv.toProc_new]

section
variable {asks : Exchange → Prop} {allowed : ∀ q : Exchange, q.Answer → Prop} {post : Url → Prop}

omit [UrlCrate] [DomainCrate] in
theorem tryOrigin_finds {origin : Url}
    (h : (DiscoveryDavContext.program .origin origin).Always asks allowed
      fun result => ∀ root, result = .ok (some root) → post root) :
    (tryOrigin origin).Always asks allowed fun result => ∀ root, result = .ok root → post root := by
  refine h.bind fun result hresult => ?_
  rcases result with err | _ | root
  · simp [Prog.Always, afterOrigin]
  · simp [Prog.Always, afterOrigin]
  · simpa [Prog.Always, afterOrigin] using hresult root rfl

section
variable {origin : Url} {service : DiscoveryDavService}
  (horigin : (DiscoveryDavContext.program .origin origin).Always asks allowed
    fun result => ∀ root, result = .ok (some root) → post root)
  (hprobe : (DiscoveryWellKnown.program origin service).Always asks allowed
    fun result => ∀ root, result = .ok (some root) → post root)
include horigin hprobe

omit [DomainCrate] in
theorem tryWellKnown_finds :
    (tryWellKnown service origin).Always asks allowed
      fun result => ∀ root, result = .ok root → post root := by
  refine hprobe.bind fun result hresult => ?_
  rcases result with err | _ | root
  · simp [Prog.Always, afterWellKnown]
  · exact tryOrigin_finds horigin
  · simpa [Prog.Always, afterWellKnown] using hresult root rfl

omit [DomainCrate] in
theorem afterTxt_finds {result : WebdavTxtResult}
    (htxt : ∀ path, result = .ok (some path) → ∀ url, UrlCrate.join origin path = .ok url →
      (DiscoveryDavContext.program .txtPath url).Always asks allowed
        fun result => ∀ root, result = .ok (some root) → post root) :
    (afterTxt service origin result).Always asks allowed
      fun result => ∀ root, result = .ok root → post root := by
  rcases result with err | _ | path
  · simp [Prog.Always, afterTxt]
  · exact tryWellKnown_finds horigin hprobe
  · simp only [afterTxt]
    cases hroot : UrlCrate.join origin path with
    | error err => simp [Prog.Always]
    | ok root =>
      refine (htxt path rfl root hroot).bind fun result hresult => ?_
      rcases result with err | _ | root
      · simp [Prog.Always, afterTxtPath]
      · exact tryWellKnown_finds horigin hprobe
      · simpa [Prog.Always, afterTxtPath] using hresult root rfl

end

section
variable {good : Url → Prop} (hw : WalksStay asks allowed good) {origin : Url}
  {service : DiscoveryDavService} (h : good origin)
  (hp : ∀ request, IoHttpCrate.prepareRequest (UrlCrate.asStr origin) service.serviceName =
    .ok request → good request.url)
include hw h hp

omit [DomainCrate] in
theorem tryWellKnown_always :
    (tryWellKnown service origin).Always asks allowed
      fun result => ∀ root, result = .ok root → good root :=
  tryWellKnown_finds (DiscoveryDavContext.always .origin hw h) (DiscoveryWellKnown.always hw hp)

omit [DomainCrate] in
theorem afterTxt_always {result : WebdavTxtResult}
    (hjoin : ∀ path, result = .ok (some path) → ∀ root, UrlCrate.join origin path = .ok root →
      good root) :
    (afterTxt service origin result).Always asks allowed
      fun result => ∀ root, result = .ok root → good root := by
  apply afterTxt_finds (DiscoveryDavContext.always .origin hw h) (DiscoveryWellKnown.always hw hp)
  intro path hpath root hroot
  exact DiscoveryDavContext.always .txtPath hw (hjoin path hpath root hroot)

end
end

end DiscoveryDavResolve
end PimDiscovery
