import PimDiscovery.Crates
import PimDiscovery.Interaction.Runs

/-! The single exchanges every coroutine is made of: one DNS message to the resolver and back, one
HTTP request, one hop of a redirect walk. -/

namespace PimDiscovery
open Interaction

inductive DiscoveryYield where
  | wantsRead (url : Url)
  | wantsWrite (url : Url) (bytes : Bytes)
  deriving DecidableEq

def DiscoveryYield.url : DiscoveryYield → Url
  | wantsRead url => url
  | wantsWrite url _ => url

inductive DiscoveryDnsExchangeError where
  | eof
  | http (err : String)
  | httpStatus (status : Nat)
  deriving DecidableEq

def framed (message : Bytes) : Bytes :=
  let len := message.length % 65536
  UInt8.ofNat (len / 256) :: UInt8.ofNat (len % 256) :: message

section
variable [IoHttpCrate]

inductive ExchangeState where
  | tcpWrite (bytes : Bytes)
  | tcpRead (response : Bytes)
  | http (send : IoHttpCrate.Send)
  | done

structure DiscoveryDnsExchange where
  resolver : Url
  state : ExchangeState

namespace DiscoveryDnsExchange

def new (message : Bytes) (resolver : Url) : DiscoveryDnsExchange :=
  match resolver.scheme with
  | "http" | "https" =>
    let request : HttpRequest := { method := "POST", url := resolver, headers := [], body := message }
    let request := (request.header "Content-Type" "application/dns-message").header
      "Accept" "application/dns-message"
    { resolver, state := .http (IoHttpCrate.newSend request) }
  | _ => { resolver, state := .tcpWrite (framed message) }

def body (response : Bytes) : Option Bytes :=
  match response with
  | hi :: lo :: rest =>
    let bodyLen := hi.toNat * 256 + lo.toNat
    if bodyLen ≤ rest.length then some (rest.take bodyLen) else none
  | _ => none

def resume (self : DiscoveryDnsExchange) (arg : Option Bytes) :
    Step DiscoveryYield DiscoveryDnsExchange (Except DiscoveryDnsExchangeError Bytes) :=
  match self.state with
  | .tcpWrite bytes => .yielded (.wantsWrite self.resolver bytes) { self with state := .tcpRead [] }
  | .tcpRead response =>
    -- An empty read is the end of the stream; no bytes at all are the resume after a write.
    if arg = some [] then .complete (.error .eof)
    else
      let response := response ++ arg.getD []
      match body response with
      | some body => .complete (.ok body)
      | none => .yielded (.wantsRead self.resolver) { self with state := .tcpRead response }
  | .http send =>
    match IoHttpCrate.resumeSend send arg with
    | (.yielded .wantsRead, send) =>
      .yielded (.wantsRead self.resolver) { self with state := .http send }
    | (.yielded (.wantsWrite bytes), send) =>
      .yielded (.wantsWrite self.resolver bytes) { self with state := .http send }
    -- A resolver is not followed when it redirects.
    | (.yielded (.wantsRedirect _ response), _) => .complete (.error (.httpStatus response.status))
    | (.complete (.ok response), _) =>
      if !response.isSuccess then .complete (.error (.httpStatus response.status))
      else .complete (.ok response.body)
    | (.complete (.error err), _) => .complete (.error (.http err))
  | .done => .panicked

/-- What is left to write of an exchange of `message` with `resolver`. -/
def Sends (message : Bytes) (resolver : Url) (self : DiscoveryDnsExchange) : Prop :=
  self.resolver = resolver ∧
    match self.state with
    | .tcpWrite bytes => bytes = framed message
    | .http _ => resolver.scheme = "http" ∨ resolver.scheme = "https"
    | .tcpRead _ | .done => True

theorem sends_new (message : Bytes) (resolver : Url) : Sends message resolver (new message resolver) := by
  unfold new
  split
  · exact ⟨rfl, .inl ‹_›⟩
  · exact ⟨rfl, .inr ‹_›⟩
  · exact ⟨rfl, rfl⟩

theorem resume_sends {message : Bytes} {resolver : Url} {self next : DiscoveryDnsExchange}
    {arg : Option Bytes} {y : DiscoveryYield} (h : Sends message resolver self)
    (hres : self.resume arg = .yielded y next) :
    Sends message resolver next ∧ ∀ url bytes, y = .wantsWrite url bytes → url = resolver ∧
      (bytes = framed message ∨ resolver.scheme = "http" ∨ resolver.scheme = "https") := by
  obtain ⟨resolver', state⟩ := self
  obtain ⟨rfl, hstate⟩ := h
  unfold resume at hres
  cases state with
  | tcpWrite bytes =>
    obtain ⟨rfl, rfl⟩ := Step.yielded.inj hres
    refine ⟨⟨rfl, trivial⟩, fun url written hy => ?_⟩
    obtain ⟨rfl, rfl⟩ := DiscoveryYield.wantsWrite.inj hy
    exact ⟨rfl, .inl hstate⟩
  | tcpRead response =>
    simp only at hres
    split at hres
    · exact nomatch hres
    · split at hres
      · exact nomatch hres
      · obtain ⟨rfl, rfl⟩ := Step.yielded.inj hres
        exact ⟨⟨rfl, trivial⟩, nofun⟩
  | http send =>
    simp only at hres
    split at hres
    · obtain ⟨rfl, rfl⟩ := Step.yielded.inj hres
      exact ⟨⟨rfl, hstate⟩, nofun⟩
    · obtain ⟨rfl, rfl⟩ := Step.yielded.inj hres
      refine ⟨⟨rfl, hstate⟩, fun url written hy => ?_⟩
      obtain ⟨rfl, rfl⟩ := DiscoveryYield.wantsWrite.inj hy
      exact ⟨rfl, .inr hstate⟩
    · exact nomatch hres
    · split at hres <;> exact nomatch hres
    · exact nomatch hres
  | done => exact nomatch hres

end DiscoveryDnsExchange
end

/-- Which walk of a run a hop belongs to. -/
inductive WalkRole where
  | txtPath | wellKnown | origin | session | schemes
  deriving DecidableEq, Repr

inductive Exchange where
  | dns (qtype : QType) (name : String) (resolver : Url)
  | hop (walk : WalkRole) (hops : Nat) (request : HttpRequest)
  | send (request : HttpRequest)
  deriving DecidableEq

inductive HttpSendEnd where
  | response (response : HttpResponse)
  | redirect (url : Url) (response : HttpResponse)
  | failed (err : String)
  deriving DecidableEq

def Exchange.Answer : Exchange → Type
  | dns _ _ _ => Except DiscoveryDnsExchangeError Bytes
  | hop _ _ _ => Except String HttpWellKnownOutput
  | send _ => HttpSendEnd

instance (q : Exchange) : DecidableEq q.Answer :=
  match q with
  | .dns _ _ _ => inferInstanceAs (DecidableEq (Except DiscoveryDnsExchangeError Bytes))
  | .hop _ _ _ => inferInstanceAs (DecidableEq (Except String HttpWellKnownOutput))
  | .send _ => inferInstanceAs (DecidableEq HttpSendEnd)

def absoluteName (name : String) : String := if Text.endsWith name "." then name else name ++ "."

inductive QueryError where
  | invalidName (err : String) (name : String)
  | queryTooLarge (err : String)
  deriving DecidableEq

section
variable [DomainCrate]

def queryMessage (qtype : QType) (name : String) : Except QueryError Bytes :=
  match DomainCrate.parseName (absoluteName name) with
  | .error err => .error (.invalidName err name)
  | .ok qname =>
    match DomainCrate.buildQuestion qtype qname with
    | .error err => .error (.queryTooLarge err)
    | .ok message => .ok message

variable [IoHttpCrate]

/-- One step of `Http11WellKnown`, its I/O tagged with the URL it is for. -/
def resumeHop (url : Url) (send : IoHttpCrate.WellKnown) (arg : Option Bytes) :
    Step DiscoveryYield IoHttpCrate.WellKnown (Except String HttpWellKnownOutput) :=
  match IoHttpCrate.resumeWellKnown send arg with
  | (.yielded .wantsRead, send) => .yielded (.wantsRead url) send
  | (.yielded (.wantsWrite bytes), send) => .yielded (.wantsWrite url bytes) send
  | (.complete result, _) => .complete result

/-- One step of `Http11Send`, its I/O tagged with the URL it is for. -/
def resumeRequest (url : Url) (send : IoHttpCrate.Send) (arg : Option Bytes) :
    Step DiscoveryYield IoHttpCrate.Send HttpSendEnd :=
  match IoHttpCrate.resumeSend send arg with
  | (.yielded .wantsRead, send) => .yielded (.wantsRead url) send
  | (.yielded (.wantsWrite bytes), send) => .yielded (.wantsWrite url bytes) send
  | (.yielded (.wantsRedirect next response), _) => .complete (.redirect next response)
  | (.complete (.ok response), _) => .complete (.response response)
  | (.complete (.error err), _) => .complete (.failed err)

omit [DomainCrate] in
theorem resumeHop_url {url : Url} {send next : IoHttpCrate.WellKnown} {arg : Option Bytes}
    {y : DiscoveryYield} (h : resumeHop url send arg = .yielded y next) : y.url = url := by
  unfold resumeHop at h
  split at h
  · exact (Step.yielded.inj h).1 ▸ rfl
  · exact (Step.yielded.inj h).1 ▸ rfl
  · exact nomatch h

omit [DomainCrate] in
theorem resumeRequest_url {url : Url} {send next : IoHttpCrate.Send} {arg : Option Bytes}
    {y : DiscoveryYield} (h : resumeRequest url send arg = .yielded y next) : y.url = url := by
  unfold resumeRequest at h
  split at h
  · exact (Step.yielded.inj h).1 ▸ rfl
  · exact (Step.yielded.inj h).1 ▸ rfl
  · exact nomatch h
  · exact nomatch h
  · exact nomatch h

def exchanges : Leaves Exchange Exchange.Answer Bytes DiscoveryYield where
  State
    | .dns _ _ _ => DiscoveryDnsExchange
    | .hop _ _ _ => IoHttpCrate.WellKnown
    | .send _ => IoHttpCrate.Send
  start
    | .dns qtype name resolver =>
      DiscoveryDnsExchange.new ((queryMessage qtype name).toOption.getD []) resolver
    | .hop _ _ request => IoHttpCrate.newWellKnown request
    | .send request => IoHttpCrate.newSend request
  resume
    | .dns _ _ _ => DiscoveryDnsExchange.resume
    | .hop _ _ request => resumeHop request.url
    | .send request => resumeRequest request.url

end

abbrev Protocol (α : Type) : Type := Prog Exchange Exchange.Answer α

abbrev Network : Type := ∀ q : Exchange, q.Answer

/-- The exchanges of a run, each with its answer. -/
abbrev Hearing : Type := ∀ q : Exchange, q.Answer → Prop

namespace Network

def dns (o : Network) (qtype : QType) (name : String) (resolver : Url) :
    Except DiscoveryDnsExchangeError Bytes :=
  o (.dns qtype name resolver)

def hop (o : Network) (walk : WalkRole) (hops : Nat) (request : HttpRequest) :
    Except String HttpWellKnownOutput :=
  o (.hop walk hops request)

def send (o : Network) (request : HttpRequest) : HttpSendEnd := o (.send request)

end Network

namespace Protocol
variable {α : Type}

def dns (qtype : QType) (name : String) (resolver : Url)
    (next : Except DiscoveryDnsExchangeError Bytes → Protocol α) : Protocol α :=
  .ask (.dns qtype name resolver) next

def hop (walk : WalkRole) (hops : Nat) (request : HttpRequest)
    (next : Except String HttpWellKnownOutput → Protocol α) : Protocol α :=
  .ask (.hop walk hops request) next

def send (request : HttpRequest) (next : HttpSendEnd → Protocol α) : Protocol α :=
  .ask (.send request) next

@[simp] theorem eval_hop (o : Network) (walk : WalkRole) (hops : Nat) (request : HttpRequest)
    (next : Except String HttpWellKnownOutput → Protocol α) :
    (hop walk hops request next).eval o = (next (o.hop walk hops request)).eval o := rfl

end Protocol

abbrev ProtocolRun [DomainCrate] [IoHttpCrate] (α : Type) : Type := Proc exchanges α

namespace ProtocolRun
variable [DomainCrate] [IoHttpCrate] {α : Type}

def dns (qtype : QType) (name : String) (resolver : Url) (exchange : DiscoveryDnsExchange)
    (next : Except DiscoveryDnsExchangeError Bytes → Protocol α) : ProtocolRun α :=
  .inside (.dns qtype name resolver) exchange next

def hop (walk : WalkRole) (hops : Nat) (request : HttpRequest) (send : IoHttpCrate.WellKnown)
    (next : Except String HttpWellKnownOutput → Protocol α) : ProtocolRun α :=
  .inside (.hop walk hops request) send next

def send (request : HttpRequest) (send : IoHttpCrate.Send)
    (next : HttpSendEnd → Protocol α) : ProtocolRun α :=
  .inside (.send request) send next

theorem resume_dns (qtype : QType) (name : String) (resolver : Url)
    (exchange : DiscoveryDnsExchange) (next : Except DiscoveryDnsExchangeError Bytes → Protocol α)
    (arg : Option Bytes) :
    (dns qtype name resolver exchange next).resume arg =
      (exchange.resume arg).elim
        (fun y exchange => .yielded y (dns qtype name resolver exchange next))
        (fun answer => drive exchanges (next answer)) .panicked := rfl

theorem resume_hop (walk : WalkRole) (hops : Nat) (request : HttpRequest)
    (state : IoHttpCrate.WellKnown) (next : Except String HttpWellKnownOutput → Protocol α)
    (arg : Option Bytes) :
    (hop walk hops request state next).resume arg =
      (resumeHop request.url state arg).elim
        (fun y state => .yielded y (hop walk hops request state next))
        (fun answer => drive exchanges (next answer)) .panicked := rfl

theorem resume_send (request : HttpRequest) (state : IoHttpCrate.Send)
    (next : HttpSendEnd → Protocol α) (arg : Option Bytes) :
    (send request state next).resume arg =
      (resumeRequest request.url state arg).elim
        (fun y state => .yielded y (send request state next))
        (fun answer => drive exchanges (next answer)) .panicked := rfl

theorem drive_dns {qtype : QType} {name : String} {message : Bytes}
    (h : queryMessage qtype name = .ok message) (resolver : Url)
    (next : Except DiscoveryDnsExchangeError Bytes → Protocol α) :
    drive exchanges (Protocol.dns qtype name resolver next) =
      (dns qtype name resolver (.new message resolver) next).resume none := by
  have hstart : exchanges.start (.dns qtype name resolver) = .new message resolver := by
    simp only [exchanges, h]
    rfl
  rw [dns, ← hstart]
  exact (Proc.resume_start _ _).symm

theorem drive_hop (walk : WalkRole) (hops : Nat) (request : HttpRequest)
    (next : Except String HttpWellKnownOutput → Protocol α) :
    drive exchanges (Protocol.hop walk hops request next) =
      (hop walk hops request (IoHttpCrate.newWellKnown request) next).resume none :=
  (Proc.resume_start _ _).symm

theorem drive_send (request : HttpRequest) (next : HttpSendEnd → Protocol α) :
    drive exchanges (Protocol.send request next) =
      (send request (IoHttpCrate.newSend request) next).resume none :=
  (Proc.resume_start _ _).symm

end ProtocolRun
end PimDiscovery
