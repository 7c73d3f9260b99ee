import PimDiscovery.Shared.Dns

/-! The probe of the resolver: one SOA question, asked only to learn whether it answers. -/

namespace PimDiscovery
open Interaction

inductive DiscoveryDnsProbeError where
  | query (err : QueryError)
  | invalidResponse (len : Nat)
  | eof
  | exchange (err : DiscoveryDnsExchangeError)
  deriving DecidableEq

def DiscoveryDnsExchangeError.message : DiscoveryDnsExchangeError → String
  | eof => "DNS stream reached EOF before a full response"
  | http _ => "DNS-over-HTTPS exchange failed"
  | httpStatus status => "DNS-over-HTTPS resolver answered HTTP " ++ toString status

def DiscoveryDnsProbeError.message : DiscoveryDnsProbeError → String
  | query (.invalidName _ name) => "DNS probe domain `" ++ name ++ "` is not a valid name"
  | query (.queryTooLarge _) => "DNS probe query did not fit in the 4096-byte buffer"
  | invalidResponse len =>
    "DNS resolver answered " ++ toString len ++ " bytes, too short for a DNS message"
  | eof => "DNS resolver did not answer"
  | exchange err => err.message

abbrev DiscoveryDnsRcode := UInt8

namespace DiscoveryDnsRcode

def isAnswer (rcode : DiscoveryDnsRcode) : Bool := rcode == 0 || rcode == 3

def name (rcode : DiscoveryDnsRcode) : String :=
  match rcode.toNat with
  | 0 => "NOERROR"
  | 1 => "FORMERR"
  | 2 => "SERVFAIL"
  | 3 => "NXDOMAIN"
  | 4 => "NOTIMP"
  | 5 => "REFUSED"
  | code => "RCODE " ++ toString code

end DiscoveryDnsRcode

abbrev DnsProbeResult : Type := Except DiscoveryDnsProbeError DiscoveryDnsRcode

variable [DomainCrate] [IoHttpCrate]

structure DiscoveryDnsProbe where
  domain : String
  resolver : Url
  exchange : Option DiscoveryDnsExchange

namespace DiscoveryDnsProbe

def new (domain : String) (resolver : Url) : DiscoveryDnsProbe :=
  { domain, resolver, exchange := none }

def finish : Except DiscoveryDnsExchangeError Bytes → DnsProbeResult
  | .error .eof => .error .eof
  | .error err => .error (.exchange err)
  | .ok response =>
    match response with
    -- The response code is the low half of the fourth byte.
    | _ :: _ :: _ :: flags :: _ =>
      if response.length < 12 then .error (.invalidResponse response.length) else .ok (flags &&& 0x0F)
    | _ => .error (.invalidResponse response.length)

def resumeExchange (self : DiscoveryDnsProbe) (exchange : DiscoveryDnsExchange)
    (arg : Option Bytes) : Step DiscoveryYield DiscoveryDnsProbe DnsProbeResult :=
  match exchange.resume arg with
  | .yielded y exchange => .yielded y { self with exchange := some exchange }
  | .complete answer => .complete (finish answer)
  | .panicked => .panicked

def resume (self : DiscoveryDnsProbe) (arg : Option Bytes) :
    Step DiscoveryYield DiscoveryDnsProbe DnsProbeResult :=
  match self.exchange with
  | some exchange => self.resumeExchange exchange arg
  | none =>
    match queryMessage .soa self.domain with
    | .error err => .complete (.error (.query err))
    -- Unlike a lookup, the probe hands its first argument on to the exchange.
    | .ok message => self.resumeExchange (DiscoveryDnsExchange.new message self.resolver) arg

def program (domain : String) (resolver : Url) : Protocol DnsProbeResult :=
  match queryMessage .soa domain with
  | .error err => .pure (.error (.query err))
  | .ok _ => Protocol.dns .soa domain resolver fun answer => .pure (finish answer)

def toProc (self : DiscoveryDnsProbe) : ProtocolRun DnsProbeResult :=
  let inside exchange :=
    ProtocolRun.dns .soa self.domain self.resolver exchange fun answer => .pure (finish answer)
  match self.exchange with
  | some exchange => inside exchange
  | none =>
    match queryMessage .soa self.domain with
    | .error err => .enter (.pure (.error (.query err)))
    | .ok message => inside (DiscoveryDnsExchange.new message self.resolver)

theorem resumeExchange_toProc (self : DiscoveryDnsProbe) (exchange : DiscoveryDnsExchange)
    (arg : Option Bytes) :
    (self.resumeExchange exchange arg).mapState toProc =
      (ProtocolRun.dns .soa self.domain self.resolver exchange fun answer =>
        .pure (finish answer)).resume arg := by
  rw [resumeExchange, ProtocolRun.resume_dns]
  cases exchange.resume arg <;> rfl

theorem refines : Refines resume toProc := by
  intro self arg
  unfold resume toProc
  cases self.exchange with
  | some exchange => exact resumeExchange_toProc self exchange arg
  | none =>
    simp only
    cases queryMessage .soa self.domain with
    | error err => rfl
    | ok message => exact resumeExchange_toProc self _ arg

theorem toProc_new (domain : String) (resolver : Url) :
    (toProc (new domain resolver)).resume none = drive exchanges (program domain resolver) := by
  unfold toProc new program
  simp only
  cases hm : queryMessage .soa domain with
  | error err => rfl
  | ok message => exact (ProtocolRun.drive_dns hm resolver _).symm

omit [IoHttpCrate] in
theorem always {asks : Exchange → Prop} {allowed : ∀ q : Exchange, q.Answer → Prop}
    {domain : String} {resolver : Url} (h : AsksDns asks .soa resolver) :
    (program domain resolver).Always asks allowed fun _ => True := by
  unfold program
  cases hm : queryMessage .soa domain with
  | error err => trivial
  | ok message => exact ⟨h domain message hm, fun _ _ => trivial⟩

end DiscoveryDnsProbe
end PimDiscovery
