import PimDiscovery.Rfc6186.Srv
import PimDiscovery.Rfc8620.WellKnown
import PimDiscovery.PlainNet

/-! The JMAP resolver: the best SRV record fixes an `https` origin, whose `.well-known/jmap` is
probed. -/

namespace PimDiscovery
open Interaction

inductive DiscoveryJmapResolveError where
  | wellKnown (err : String)
  | invalidOrigin (raw err : String)
  | notFound (origin : Url)
  deriving DecidableEq

abbrev JmapResolveResult : Type := Except DiscoveryJmapResolveError DiscoveryJmapSessionResource

section
variable [UrlCrate] [DomainCrate] [IoHttpCrate] [SerdeCrate]

inductive JmapResolveState where
  | srv (srv : DiscoveryDnsSrv)
  | wellKnown (probe : DiscoveryJmapWellKnown) (origin : Url)
  | done

structure DiscoveryJmapResolve where
  domain : String
  state : JmapResolveState

namespace DiscoveryJmapResolve

def srvQname (domain : String) : String := "_jmap._tcp." ++ domain

def new (domain : String) (resolver : Url) : DiscoveryJmapResolve :=
  let domain := Text.trimMatches domain '.'
  { domain, state := .srv (DiscoveryDnsSrv.new (srvQname domain) resolver) }

def origin (domain : String) (srv : Option (String × UInt16)) :
    Except DiscoveryJmapResolveError Url :=
  let (host, port) := srv.getD (domain, 443)
  -- JMAP has no plain service name.
  match parseOrigin "https" host port with
  | .ok url => .ok url
  | .error (raw, err) => .error (.invalidOrigin raw err)

def best (records : List Srv) : Option (String × UInt16) :=
  records.head?.map fun srv => (Text.trimEndMatches srv.name.text '.', srv.port)

section
variable (self : DiscoveryJmapResolve)

def resumeWellKnown (probe : DiscoveryJmapWellKnown) (origin : Url) (arg : Option Bytes) :
    Step DiscoveryYield DiscoveryJmapResolve JmapResolveResult :=
  match DiscoveryJmapWellKnown.resume probe arg with
  | .complete (.ok (some session)) => .complete (.ok session)
  | .complete (.ok none) => .complete (.error (.notFound origin))
  | .yielded y probe => .yielded y { self with state := .wellKnown probe origin }
  | .complete (.error err) => .complete (.error (.wellKnown err))
  | .panicked => .panicked

def probe (srv : Option (String × UInt16)) :
    Step DiscoveryYield DiscoveryJmapResolve JmapResolveResult :=
  match origin self.domain srv with
  | .error err => .complete (.error err)
  | .ok origin => self.resumeWellKnown (DiscoveryJmapWellKnown.new origin) origin none

def resume (arg : Option Bytes) : Step DiscoveryYield DiscoveryJmapResolve JmapResolveResult :=
  match self.state with
  | .srv srv =>
    match DiscoveryDnsSrv.resume srv arg with
    | .complete (.ok records) => self.probe (best records)
    | .yielded y srv => .yielded y { self with state := .srv srv }
    -- An unreachable resolver counts as one without a record.
    | .complete (.error _) => self.probe none
    | .panicked => .panicked
  | .wellKnown probe origin => self.resumeWellKnown probe origin arg
  | .done => .panicked

end

/-! The program the states run through. -/

def afterProbe (origin : Url) : JmapProbeResult → Protocol JmapResolveResult
  | .ok (some session) => .pure (.ok session)
  | .ok none => .pure (.error (.notFound origin))
  | .error err => .pure (.error (.wellKnown err))

def tryOrigin (domain : String) (srv : Option (String × UInt16)) : Protocol JmapResolveResult :=
  match origin domain srv with
  | .error err => .pure (.error err)
  | .ok origin => DiscoveryJmapWellKnown.program origin >>= afterProbe origin

def afterSrv (domain : String) : Except DnsLookupError (List Srv) → Protocol JmapResolveResult
  | .ok records => tryOrigin domain (best records)
  | .error _ => tryOrigin domain none

def program (domain : String) (resolver : Url) : Protocol JmapResolveResult :=
  DiscoveryDnsSrv.program (srvQname (Text.trimMatches domain '.')) resolver >>=
    afterSrv (Text.trimMatches domain '.')

def toProc (self : DiscoveryJmapResolve) : ProtocolRun JmapResolveResult :=
  match self.state with
  | .srv srv => (DiscoveryDnsSrv.toProc srv).andThen (afterSrv self.domain)
  | .wellKnown probe origin => (DiscoveryJmapWellKnown.toProc probe).andThen (afterProbe origin)
  | .done => .dead

section
variable (self : DiscoveryJmapResolve)

theorem resumeWellKnown_toProc (probe : DiscoveryJmapWellKnown) (origin : Url)
    (arg : Option Bytes) :
    (self.resumeWellKnown probe origin arg).mapState toProc =
      ((DiscoveryJmapWellKnown.toProc probe).andThen (afterProbe origin)).resume arg := by
  rw [resumeWellKnown, Proc.resume_andThen, ← DiscoveryJmapWellKnown.refines probe arg]
  rcases DiscoveryJmapWellKnown.resume probe arg with _ | (_ | (_ | _)) | _ <;> rfl

theorem probe_toProc (srv : Option (String × UInt16)) :
    (self.probe srv).mapState toProc = drive exchanges (tryOrigin self.domain srv) := by
  unfold probe tryOrigin
  cases origin self.domain srv with
  | error err => rfl
  | ok origin =>
    simp only [resumeWellKnown_toProc, Proc.resume_andThen, DiscoveryJmapWellKnown.toProc_new,
      drive_bind]

end

theorem refines : Refines resume toProc := by
  intro self arg
  unfold resume toProc
  rcases self.state with srv | ⟨probe, origin⟩ | _
  · simp only [Proc.resume_andThen, ← DiscoveryDnsSrv.refines srv arg]
    rcases DiscoveryDnsSrv.resume srv arg with _ | (_ | records) | _
    · rfl
    · exact probe_toProc self none
    · exact probe_toProc self (best records)
    · rfl
  · exact resumeWellKnown_toProc self probe origin arg
  · rfl

theorem toProc_new (domain : String) (resolver : Url) (arg : Option Bytes) :
    (toProc (new domain resolver)).resume arg = drive exchanges (program domain resolver) := by
  simp only [toProc, new, program, Proc.resume_andThen, drive_bind, DiscoveryDnsSrv.toProc_new]

end DiscoveryJmapResolve

/-- A terminal response that shows a session: a session object, or a challenge for one. -/
def IsSessionResponse (response : HttpResponse) : Prop :=
  (200 ≤ response.status ∧ response.status ≤ 299 ∧ IsSessionBody response.body) ∨
    (response.status = 401 ∧ IoHttpCrate.challenges response ≠ [])

omit [UrlCrate] [DomainCrate] in
theorem DiscoveryJmapWellKnown.isValidated_iff (response : HttpResponse) :
    isValidated response (IoHttpCrate.challenges response) = true ↔ IsSessionResponse response := by
  unfold isValidated IsSessionResponse
  by_cases hok : 200 ≤ response.status ∧ response.status ≤ 299
  · have hstatus : response.status ≠ 401 := by omega
    simp [hok, hstatus, isSession_iff]
  · have hok' : ¬ (200 ≤ response.status ∧ response.status ≤ 299 ∧ IsSessionBody response.body) :=
      fun h => hok ⟨h.1, h.2.1⟩
    simp [hok, hok']

def Network.jmapHost (o : Network) (domain : String) (resolver : Url) : String × UInt16 :=
  match o.lookup .srv readSrv (DiscoveryJmapResolve.srvQname domain) resolver with
  | .ok records => (DiscoveryJmapResolve.best records).getD (domain, 443)
  | .error _ => (domain, 443)

/-- The host and port are those of the best SRV record, or the domain at 443 when there is none or
the lookup failed. -/
def Network.FixesHost (o : Network) (domain : String) (resolver : Url) (host : String × UInt16) :
    Prop :=
  (∃ best, o.BestSrv (DiscoveryJmapResolve.srvQname domain) resolver (some best) ∧
    host = (Text.trimEndMatches best.name.text '.', best.port)) ∨
  ((o.BestSrv (DiscoveryJmapResolve.srvQname domain) resolver none ∨
    ∃ err, o.srvAnswers (DiscoveryJmapResolve.srvQname domain) resolver = .error err) ∧
    host = (domain, 443))

omit [UrlCrate] [IoHttpCrate] [SerdeCrate] in
theorem Network.fixesHost (o : Network) (domain : String) (resolver : Url) :
    o.FixesHost domain resolver (o.jmapHost domain resolver) := by
  unfold FixesHost jmapHost
  rw [Network.lookup_srv]
  cases h : o.srvAnswers (DiscoveryJmapResolve.srvQname domain) resolver with
  | error err => exact .inr ⟨.inr ⟨err, rfl⟩, rfl⟩
  | ok answers =>
    have hbest := Srv.isBest_sorted answers
    simp only [Except.map, DiscoveryJmapResolve.best]
    cases hhead : (answers.mergeSort Srv.precedes).head? with
    | none => exact .inr ⟨.inl ⟨answers, h, hhead ▸ hbest⟩, rfl⟩
    | some best => exact .inl ⟨best, ⟨answers, h, hhead ▸ hbest⟩, rfl⟩

namespace DiscoveryJmapResolve

def concluded (origin : Url) (walk : WalkResult) : JmapResolveResult :=
  match DiscoveryJmapWellKnown.finish walk with
  | .ok (some session) => .ok session
  | .ok none => .error (.notFound origin)
  | .error err => .error (.wellKnown err)

omit [UrlCrate] [DomainCrate] in
theorem concluded_session {origin : Url} {output : DiscoveryHttpWalkOutput}
    (h : IsSessionResponse output.response) :
    concluded origin (.ok (some output)) =
      .ok { url := output.url, authSchemes := IoHttpCrate.challenges output.response } := by
  simp only [concluded, DiscoveryJmapWellKnown.finish,
    (DiscoveryJmapWellKnown.isValidated_iff output.response).mpr h]
  rfl

omit [UrlCrate] [DomainCrate] in
theorem concluded_elsewhere {origin : Url} {output : DiscoveryHttpWalkOutput}
    (h : ¬ IsSessionResponse output.response) :
    concluded origin (.ok (some output)) = .error (.notFound origin) := by
  have hv := mt (DiscoveryJmapWellKnown.isValidated_iff output.response).mp h
  simp only [concluded, DiscoveryJmapWellKnown.finish, Bool.eq_false_iff.mpr hv]
  rfl

omit [UrlCrate] [DomainCrate] in
theorem concluded_ok_iff (origin : Url) (walk : WalkResult)
    (session : DiscoveryJmapSessionResource) :
    concluded origin walk = .ok session ↔ ∃ output, walk = .ok (some output) ∧
      IsSessionResponse output.response ∧ session.url = output.url ∧
      session.authSchemes = IoHttpCrate.challenges output.response := by
  constructor
  · intro h
    rcases walk with cause | _ | output
    · exact nomatch h
    · exact nomatch h
    · by_cases hs : IsSessionResponse output.response
      · rw [concluded_session hs] at h
        cases h
        exact ⟨output, rfl, hs, rfl, rfl⟩
      · rw [concluded_elsewhere hs] at h
        exact nomatch h
  · rintro ⟨output, rfl, hs, hurl, hschemes⟩
    rw [concluded_session hs, ← hurl, ← hschemes]

omit [UrlCrate] [DomainCrate] in
theorem concluded_error_iff (origin : Url) (walk : WalkResult) (err : DiscoveryJmapResolveError) :
    concluded origin walk = .error err ↔
      (err = .notFound origin ∧ (walk = .ok none ∨
        ∃ output, walk = .ok (some output) ∧ ¬ IsSessionResponse output.response)) ∨
      ∃ cause, err = .wellKnown cause ∧ walk = .error cause := by
  constructor
  · intro h
    rcases walk with cause | _ | output
    · cases h
      exact .inr ⟨cause, rfl, rfl⟩
    · cases h
      exact .inl ⟨rfl, .inl rfl⟩
    · by_cases hs : IsSessionResponse output.response
      · rw [concluded_session hs] at h
        exact nomatch h
      · rw [concluded_elsewhere hs] at h
        cases h
        exact .inl ⟨rfl, .inr ⟨output, rfl, hs⟩⟩
  · rintro (⟨rfl, rfl | ⟨output, rfl, hs⟩⟩ | ⟨cause, rfl, rfl⟩)
    · rfl
    · exact concluded_elsewhere hs
    · rfl

omit [DomainCrate] in
theorem eval_tryOrigin (o : Network) (domain : String) (srv : Option (String × UInt16)) :
    (tryOrigin domain srv).eval o =
      match parseOrigin "https" (srv.getD (domain, 443)).1 (srv.getD (domain, 443)).2 with
      | .error (raw, err) => .error (.invalidOrigin raw err)
      | .ok origin =>
        concluded origin (o.walk .session (DiscoveryJmapWellKnown.request origin)) := by
  unfold tryOrigin origin
  generalize srv.getD (domain, 443) = host
  obtain ⟨host, port⟩ := host
  simp only
  cases parseOrigin "https" host port with
  | error err => rfl
  | ok url =>
    simp only [DiscoveryJmapWellKnown.program, Prog.eval_bind, Prog.eval_pure,
      DiscoveryHttpWalk.eval_program, concluded]
    rcases DiscoveryJmapWellKnown.finish (o.walk _ _) with _ | _ | _ <;> rfl

theorem eval_program (o : Network) (domain : String) (resolver : Url) :
    (program domain resolver).eval o =
      (tryOrigin (Text.trimMatches domain '.')
        (some (o.jmapHost (Text.trimMatches domain '.') resolver))).eval o := by
  rw [program, Prog.eval_bind, DiscoveryDnsSrv.program, DnsLookup.eval_program, Network.jmapHost]
  cases o.lookup .srv readSrv (srvQname (Text.trimMatches domain '.')) resolver with
  | error err => rfl
  | ok records =>
    simp only [afterSrv]
    cases best records <;> rfl

/-- A resolve reports a session exactly when its walk ended on a validated one. -/
theorem resolves_validated_session (o : Network) (domain : String) (resolver : Url)
    (args : List (Option Bytes)) (hserves : Serves exchanges o (program domain resolver) args) :
    let host := o.jmapHost (Text.trimMatches domain '.') resolver
    o.FixesHost (Text.trimMatches domain '.') resolver host ∧
    ∃ result, outcome resume (new domain resolver) (none :: args) = some result ∧
      (∀ raw err, parseOrigin "https" host.1 host.2 = .error (raw, err) →
        result = .error (.invalidOrigin raw err)) ∧
      ∀ origin, parseOrigin "https" host.1 host.2 = .ok origin →
        let walk := o.walk .session (DiscoveryJmapWellKnown.request origin)
        (∀ session, result = .ok session ↔ ∃ output, walk = .ok (some output) ∧
          IsSessionResponse output.response ∧ session.url = output.url ∧
          session.authSchemes = IoHttpCrate.challenges output.response) ∧
        ∀ err, result = .error err ↔
          (err = .notFound origin ∧ (walk = .ok none ∨
            ∃ output, walk = .ok (some output) ∧ ¬ IsSessionResponse output.response)) ∨
          ∃ cause, err = .wellKnown cause ∧ walk = .error cause := by
  refine ⟨o.fixesHost _ resolver, _,
    refines.outcome_eq (toProc_new domain resolver none) hserves, ?_⟩
  rw [eval_program, eval_tryOrigin, Option.getD_some]
  refine ⟨fun raw err h => by rw [h], fun origin h => ?_⟩
  rw [h]
  exact ⟨concluded_ok_iff origin _, concluded_error_iff origin _⟩

end DiscoveryJmapResolve
end

namespace DiscoveryJmapResolve

def challengingNetwork : Network
  | .dns _ _ _ => .ok [0, 1, 129, 128, 0, 0, 0, 0, 0, 0, 0, 0]
  | .hop _ _ _ => .ok
      { redirectUrl := none
        response := { status := 401, headers := [("www-authenticate", "Bearer")], body := [] } }
  | .send _ => .failed "unexpected EOF"

def challengingReplies : List (List (Option Bytes)) :=
  [[none, some (framed [0, 1, 129, 128, 0, 0, 0, 0, 0, 0, 0, 0])],
    [none, some (Text.bytes "HTTP/1.1 401 Unauthorized\r\nWWW-Authenticate: Bearer\r\n\r\n")]]

theorem resolves_challenged_session :
    letI := plainUrl
    letI := plainDns
    letI := plainHttp
    letI := plainSerde
    outcome resume (new "example.org" exampleResolver) (none :: challengingReplies.flatten) =
      some (.ok
        { url := { exampleOrigin with path := "/.well-known/jmap" }, authSchemes := ["bearer"] }) := by
  let _ := plainUrl
  let _ := plainDns
  let _ := plainHttp
  let _ := plainSerde
  have hserves : serves exchanges challengingNetwork (program "example.org" exampleResolver)
      challengingReplies = true := by
    decide +kernel
  obtain ⟨-, result, hresult, -, horigin⟩ := resolves_validated_session challengingNetwork
    "example.org" exampleResolver _ (serves_sound hserves)
  rw [hresult]
  have hparse : parseOrigin "https"
      (challengingNetwork.jmapHost (Text.trimMatches "example.org" '.') exampleResolver).1
      (challengingNetwork.jmapHost (Text.trimMatches "example.org" '.') exampleResolver).2 =
        .ok exampleOrigin := by
    decide +kernel
  have hwalk : challengingNetwork.walk .session (DiscoveryJmapWellKnown.request exampleOrigin) =
      .ok (some
        { url := { exampleOrigin with path := "/.well-known/jmap" }, hops := 0
          response := { status := 401, headers := [("www-authenticate", "Bearer")], body := [] } }) := by
    decide +kernel
  have hchallenged : IsSessionResponse
      { status := 401, headers := [("www-authenticate", "Bearer")], body := [] } :=
    .inr ⟨rfl, by decide +kernel⟩
  exact congrArg some (((horigin _ hparse).1
    { url := { exampleOrigin with path := "/.well-known/jmap" }, authSchemes := ["bearer"] }).mpr
      ⟨_, hwalk, hchallenged, rfl, by decide +kernel⟩)

end DiscoveryJmapResolve
end PimDiscovery
