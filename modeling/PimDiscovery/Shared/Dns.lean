import PimDiscovery.Shared.Exchange

/-! DNS lookups: one question built, exchanged with the resolver, and its answer read. -/

namespace PimDiscovery
open Interaction
variable [DomainCrate] [IoHttpCrate]

def AsksDns (asks : Exchange → Prop) (qtype : QType) (resolver : Url) : Prop :=
  ∀ name message, queryMessage qtype name = .ok message → asks (.dns qtype name resolver)

inductive DnsLookupError where
  | query (err : QueryError)
  | invalidResponse (err : String)
  | eof
  | exchange (err : DiscoveryDnsExchangeError)
  deriving DecidableEq

inductive DnsLookup.State where
  | buildQuery
  | exchange (exchange : DiscoveryDnsExchange)
  | done

/-- The state of `DiscoveryDnsTxt`, `DiscoveryDnsSrv`, `DiscoveryDnsMx` and `DiscoveryDnsCname`,
which differ in the question they ask and in how they read the answer. -/
structure DnsLookup where
  domain : String
  resolver : Url
  state : DnsLookup.State

namespace DnsLookup

def new (domain : String) (resolver : Url) : DnsLookup := { domain, resolver, state := .buildQuery }

variable {ρ : Type} (qtype : QType) (read : String → List MessageItem → ρ)

def finish (domain : String) (answer : Except DiscoveryDnsExchangeError Bytes) :
    Except DnsLookupError ρ :=
  match answer with
  | .error .eof => .error .eof
  | .error err => .error (.exchange err)
  | .ok response =>
    match DomainCrate.parseMessage response with
    | .error err => .error (.invalidResponse err)
    | .ok items => .ok (read domain items)

def resumeExchange (self : DnsLookup) (exchange : DiscoveryDnsExchange) (arg : Option Bytes) :
    Step DiscoveryYield DnsLookup (Except DnsLookupError ρ) :=
  match exchange.resume arg with
  | .yielded y exchange => .yielded y { self with state := .exchange exchange }
  | .complete answer => .complete (finish read self.domain answer)
  | .panicked => .panicked

def resume (self : DnsLookup) (arg : Option Bytes) :
    Step DiscoveryYield DnsLookup (Except DnsLookupError ρ) :=
  match self.state with
  | .buildQuery =>
    match queryMessage qtype self.domain with
    | .error err => .complete (.error (.query err))
    | .ok message => self.resumeExchange read (DiscoveryDnsExchange.new message self.resolver) none
  | .exchange exchange => self.resumeExchange read exchange arg
  | .done => .panicked

def program (domain : String) (resolver : Url) : Protocol (Except DnsLookupError ρ) :=
  match queryMessage qtype domain with
  | .error err => .pure (.error (.query err))
  | .ok _ => Protocol.dns qtype domain resolver fun answer => .pure (finish read domain answer)

def toProc (self : DnsLookup) : ProtocolRun (Except DnsLookupError ρ) :=
  match self.state with
  | .buildQuery => .enter (program qtype read self.domain self.resolver)
  | .exchange exchange =>
    ProtocolRun.dns qtype self.domain self.resolver exchange fun answer =>
      .pure (finish read self.domain answer)
  | .done => .dead

theorem resumeExchange_toProc (self : DnsLookup) (exchange : DiscoveryDnsExchange)
    (arg : Option Bytes) :
    (self.resumeExchange read exchange arg).mapState (toProc qtype read) =
      (ProtocolRun.dns qtype self.domain self.resolver exchange fun answer =>
        .pure (finish read self.domain answer)).resume arg := by
  rw [resumeExchange, ProtocolRun.resume_dns]
  cases exchange.resume arg <;> rfl

theorem refines : Refines (resume qtype read) (toProc qtype read) := by
  intro self arg
  unfold resume toProc
  cases self.state with
  | buildQuery =>
    simp only [Proc.resume_enter, program]
    cases hm : queryMessage qtype self.domain with
    | error err => rfl
    | ok message =>
      simp only [ProtocolRun.drive_dns hm]
      exact resumeExchange_toProc qtype read self _ none
  | exchange exchange => exact resumeExchange_toProc qtype read self exchange arg
  | done => rfl

theorem toProc_new (domain : String) (resolver : Url) (arg : Option Bytes) :
    (toProc qtype read (new domain resolver)).resume arg =
      drive exchanges (program qtype read domain resolver) := rfl

omit [IoHttpCrate] in
theorem always {asks : Exchange → Prop} {allowed : ∀ q : Exchange, q.Answer → Prop}
    {domain : String} {resolver : Url} (h : AsksDns asks qtype resolver) :
    (program qtype read domain resolver).Always asks allowed fun result => ∀ r, result = .ok r →
      ∃ answer, allowed (.dns qtype domain resolver) answer ∧ finish read domain answer = .ok r := by
  unfold program
  cases hm : queryMessage qtype domain with
  | error err => exact nofun
  | ok message => exact ⟨h domain message hm, fun answer ha r hr => ⟨answer, ha, hr⟩⟩

end DnsLookup

def Network.lookup {ρ : Type} (o : Network) (qtype : QType) (read : String → List MessageItem → ρ)
    (domain : String) (resolver : Url) : Except DnsLookupError ρ :=
  match queryMessage qtype domain with
  | .error err => .error (.query err)
  | .ok _ => DnsLookup.finish read domain (o.dns qtype domain resolver)

omit [IoHttpCrate] in
@[simp] theorem DnsLookup.eval_program {ρ : Type} (o : Network) (qtype : QType)
    (read : String → List MessageItem → ρ) (domain : String) (resolver : Url) :
    (program qtype read domain resolver).eval o = o.lookup qtype read domain resolver := by
  unfold program Network.lookup
  cases queryMessage qtype domain <;> rfl

omit [IoHttpCrate] in
theorem DnsLookup.asked_program {ρ : Type} (o : Network) (qtype : QType)
    (read : String → List MessageItem → ρ) (domain : String) (resolver : Url) :
    ∀ q ∈ (program qtype read domain resolver).asked o, q = .dns qtype domain resolver := by
  unfold program
  cases queryMessage qtype domain with
  | error err => simp [Prog.asked]
  | ok message => simp [Protocol.dns, Prog.asked]

omit [IoHttpCrate] in
theorem Network.lookup_map {ρ π : Type} (o : Network) (qtype : QType)
    (read : String → List MessageItem → ρ) (f : ρ → π) (domain : String) (resolver : Url) :
    o.lookup qtype (fun domain items => f (read domain items)) domain resolver =
      (o.lookup qtype read domain resolver).map f := by
  unfold lookup DnsLookup.finish
  cases queryMessage qtype domain with
  | error err => rfl
  | ok message =>
    rcases o.dns qtype domain resolver with (_ | _ | _) | response
    · rfl
    · rfl
    · rfl
    · simp only
      cases DomainCrate.parseMessage response <;> rfl

def readTxt (_ : String) (items : List MessageItem) : List (List Bytes) :=
  items.filterMap fun item =>
    match item with
    | .answer { rdata := .txt strings, .. } => some strings
    | _ => none

abbrev DiscoveryDnsTxt := DnsLookup

namespace DiscoveryDnsTxt

def new (domain : String) (resolver : Url) : DiscoveryDnsTxt := DnsLookup.new domain resolver

def resume : DiscoveryDnsTxt → Option Bytes →
    Step DiscoveryYield DiscoveryDnsTxt (Except DnsLookupError (List (List Bytes))) :=
  DnsLookup.resume .txt readTxt

def program (domain : String) (resolver : Url) :
    Protocol (Except DnsLookupError (List (List Bytes))) :=
  DnsLookup.program .txt readTxt domain resolver

def toProc (self : DiscoveryDnsTxt) : ProtocolRun (Except DnsLookupError (List (List Bytes))) :=
  DnsLookup.toProc .txt readTxt self

theorem refines : Refines resume toProc := DnsLookup.refines .txt readTxt

theorem toProc_new (domain : String) (resolver : Url) (arg : Option Bytes) :
    (toProc (new domain resolver)).resume arg = drive exchanges (program domain resolver) := rfl

end DiscoveryDnsTxt
end PimDiscovery
