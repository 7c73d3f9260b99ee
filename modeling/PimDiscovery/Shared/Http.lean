import PimDiscovery.Shared.Exchange

/-! One HTTP request on a fixed URL, its response handed to the caller. -/

namespace PimDiscovery
open Interaction
variable [DomainCrate] [IoHttpCrate]

/-- The state of `DiscoveryHttpGet`, `DiscoveryOauthServerResolve` and
`DiscoveryOauthResourceResolve`, which differ in the request and in how they read its end. -/
structure HttpFetch where
  url : Url
  send : IoHttpCrate.Send

namespace HttpFetch
variable {ρ : Type} (request : Url → HttpRequest) (finish : HttpSendEnd → ρ)

def new (url : Url) : HttpFetch := { url, send := IoHttpCrate.newSend (request url) }

def resume (self : HttpFetch) (arg : Option Bytes) : Step DiscoveryYield HttpFetch ρ :=
  match IoHttpCrate.resumeSend self.send arg with
  | (.complete (.ok response), _) => .complete (finish (.response response))
  | (.yielded .wantsRead, send) => .yielded (.wantsRead self.url) { self with send }
  | (.yielded (.wantsWrite bytes), send) => .yielded (.wantsWrite self.url bytes) { self with send }
  | (.yielded (.wantsRedirect url response), _) => .complete (finish (.redirect url response))
  | (.complete (.error err), _) => .complete (finish (.failed err))

def program (url : Url) : Protocol ρ := Protocol.send (request url) fun answer => .pure (finish answer)

def toProc (self : HttpFetch) : ProtocolRun ρ :=
  ProtocolRun.send (request self.url) self.send fun answer => .pure (finish answer)

variable {request} in
theorem refines (hurl : ∀ url, (request url).url = url) :
    Refines (resume finish) (toProc request finish) := by
  intro self arg
  rw [toProc, ProtocolRun.resume_send, resumeRequest, resume, hurl]
  obtain ⟨state, send⟩ := IoHttpCrate.resumeSend self.send arg
  rcases state with (_ | _ | _) | (_ | _) <;> rfl

theorem toProc_new (url : Url) :
    (toProc request finish (new request url)).resume none =
      drive exchanges (program request finish url) :=
  (ProtocolRun.drive_send _ _).symm

omit [DomainCrate] [IoHttpCrate] in
theorem always {asks : Exchange → Prop} {allowed : ∀ q : Exchange, q.Answer → Prop} {url : Url}
    (h : asks (.send (request url))) :
    (program request finish url).Always asks allowed fun result =>
      ∃ answer, allowed (.send (request url)) answer ∧ result = finish answer :=
  ⟨h, fun answer ha => ⟨answer, ha, rfl⟩⟩

end HttpFetch

inductive DiscoveryHttpGetError where
  | status (status : Nat)
  | redirect (url : Url) (code : Nat)
  | http (err : String)
  deriving DecidableEq

abbrev DiscoveryHttpGet := HttpFetch

namespace DiscoveryHttpGet

def request (url : Url) : HttpRequest :=
  (HttpRequest.get url).header "Host" (url.host.getD "127.0.0.1")

def finish : HttpSendEnd → Except DiscoveryHttpGetError Bytes
  | .response response =>
    if !response.isSuccess then .error (.status response.status) else .ok response.body
  | .redirect url response => .error (.redirect url response.status)
  | .failed err => .error (.http err)

def new (url : Url) : DiscoveryHttpGet := HttpFetch.new request url

def resume : DiscoveryHttpGet → Option Bytes →
    Step DiscoveryYield DiscoveryHttpGet (Except DiscoveryHttpGetError Bytes) :=
  HttpFetch.resume finish

def program (url : Url) : Protocol (Except DiscoveryHttpGetError Bytes) :=
  HttpFetch.program request finish url

def toProc (self : DiscoveryHttpGet) : ProtocolRun (Except DiscoveryHttpGetError Bytes) :=
  HttpFetch.toProc request finish self

theorem refines : Refines resume toProc := HttpFetch.refines finish fun _ => rfl

theorem toProc_new (url : Url) : (toProc (new url)).resume none = drive exchanges (program url) :=
  HttpFetch.toProc_new request finish url

end DiscoveryHttpGet
end PimDiscovery
