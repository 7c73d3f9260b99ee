import PimDiscovery.Compose.Machines
import PimDiscovery.Interaction.Answers
import PimDiscovery.Pacc.Vouched
import PimDiscovery.Rfc6764.FirstCandidate

/-! A resolver is a place where DNS questions are put and nothing else: over TCP or over HTTP, at one resolver or
at another that answers the same messages, every job of the client asks and returns the same. -/

namespace PimDiscovery
open Interaction

namespace Exchange

def toResolver (resolver : Url) : Exchange → Exchange
  | dns qtype name _ => dns qtype name resolver
  | hop walk hops request => hop walk hops request
  | send request => send request

def via (resolver : Url) : (q : Exchange) → Protocol q.Answer
  | dns qtype name _ => Prog.call (dns qtype name resolver)
  | hop walk hops request => Prog.call (hop walk hops request)
  | send request => Prog.call (send request)

theorem asked_via (resolver : Url) (o : Network) (q : Exchange) :
    (q.via resolver).asked o = [q.toResolver resolver] := by
  cases q <;> rfl

theorem via_eq_call {resolver : Url} {q : Exchange} (h : DiscoveryDavResolve.NoDns q) :
    q.via resolver = Prog.call q := by
  cases q with
  | dns qtype name resolver' => exact absurd rfl (h qtype name resolver')
  | hop walk hops request => rfl
  | send request => rfl

theorem toResolver_toResolver (resolver resolver' : Url) (q : Exchange) :
    (q.toResolver resolver').toResolver resolver = q.toResolver resolver := by
  cases q <;> rfl

end Exchange

def Network.via (o : Network) (resolver : Url) : Network := fun q => (q.via resolver).eval o

theorem interpret_noDns {α : Type} {post : α → Prop} {program : Protocol α} (resolver : Url)
    (h : program.Always DiscoveryDavResolve.NoDns (fun _ _ => True) post) :
    program.interpret (Exchange.via resolver) = program :=
  Prog.interpret_eq_self (fun _ hq => Exchange.via_eq_call hq) h

theorem HttpFetch.program_via {ρ : Type} (request : Url → HttpRequest) (finish : HttpSendEnd → ρ)
    (url resolver : Url) :
    (program request finish url).interpret (Exchange.via resolver) = program request finish url := rfl

section
variable [DomainCrate]

theorem DnsLookup.program_via {ρ : Type} (qtype : QType) (read : String → List MessageItem → ρ)
    (domain : String) (resolver resolver' : Url) :
    (program qtype read domain resolver).interpret (Exchange.via resolver') =
      program qtype read domain resolver' := by
  unfold program
  cases queryMessage qtype domain <;> rfl

theorem DiscoveryDnsProbe.program_via (domain : String) (resolver resolver' : Url) :
    (program domain resolver).interpret (Exchange.via resolver') = program domain resolver' := by
  unfold program
  cases queryMessage .soa domain <;> rfl

/-- By induction on the lookups left. -/
theorem SrvSeries.program_via {ρ : Type} (domain : String) (resolver resolver' : Url)
    (left : List (SrvLookup ρ)) (report : ρ) :
    (program domain resolver left report).interpret (Exchange.via resolver') =
      program domain resolver' left report := by
  induction left generalizing report with
  | nil => rfl
  | cons lookup left ih =>
    have hlookup := DnsLookup.program_via .srv readSrv (lookup.qname domain) resolver resolver'
    rw [program, Prog.interpret_bind, program, DiscoveryDnsSrv.program, hlookup]
    congr 1
    funext result
    cases result with
    | error err => rfl
    | ok records => exact ih _

theorem DiscoveryDnsTxt.bind_via {ρ : Type} (finish : Except DnsLookupError (List (List Bytes)) → ρ)
    (domain : String) (resolver resolver' : Url) :
    (program domain resolver >>= fun records => .pure (finish records)).interpret
        (Exchange.via resolver') =
      program domain resolver' >>= fun records => .pure (finish records) := by
  rw [Prog.interpret_bind, program, DnsLookup.program_via]
  rfl

variable [IoHttpCrate] [UrlCrate]

theorem DiscoveryDavResolve.program_via (domain : String) (service : DiscoveryDavService)
    (resolver resolver' : Url) (secureOnly : Bool) :
    (program domain service resolver secureOnly).interpret (Exchange.via resolver') =
      program domain service resolver' secureOnly := by
  have hrecord : ∀ record,
      (tryRecord service (Text.trimMatches domain '.') resolver record).interpret
          (Exchange.via resolver') =
        tryRecord service (Text.trimMatches domain '.') resolver' record := by
    intro record
    unfold tryRecord
    cases origin (Text.trimMatches domain '.') record with
    | error err => rfl
    | ok origin =>
      simp only
      cases record with
      | none =>
        exact interpret_noDns resolver' (tryWellKnown_always walksStay_noDns trivial fun _ _ => trivial)
      | some record =>
        have htxt := DiscoveryDnsTxt.bind_via DiscoveryWebdavTxt.finish
          (service.srvQname record.1 (Text.trimMatches domain '.')) resolver resolver'
        simp only [Option.map_some]
        rw [Prog.interpret_bind, DiscoveryWebdavTxt.program, htxt]
        congr 1
        funext result
        exact interpret_noDns resolver'
          (afterTxt_always walksStay_noDns trivial (fun _ _ => trivial) fun _ _ _ _ => trivial)
  unfold program
  rw [Prog.interpret_bind, DiscoveryWebdavSrv.program, SrvSeries.program_via]
  congr 1
  funext result
  cases result with
  | error err => exact hrecord none
  | ok report => exact hrecord _

variable [SerdeCrate]

theorem DiscoveryJmapResolve.program_via (domain : String) (resolver resolver' : Url) :
    (program domain resolver).interpret (Exchange.via resolver') = program domain resolver' := by
  have horigin : ∀ srv, (tryOrigin (Text.trimMatches domain '.') srv).interpret
      (Exchange.via resolver') = tryOrigin (Text.trimMatches domain '.') srv := by
    intro srv
    unfold tryOrigin
    cases origin (Text.trimMatches domain '.') srv with
    | error err => rfl
    | ok origin =>
      have halways : (DiscoveryJmapWellKnown.program origin).Always DiscoveryDavResolve.NoDns
          (fun _ _ => True) fun _ => True :=
        (DiscoveryJmapWellKnown.always DiscoveryDavResolve.walksStay_noDns trivial).mono
          fun _ _ => trivial
      have hprobe := interpret_noDns resolver' halways
      simp only
      rw [Prog.interpret_bind, hprobe]
      congr 1
      funext result
      rcases result with err | _ | session <;> rfl
  unfold program
  rw [Prog.interpret_bind, DiscoveryDnsSrv.program, DnsLookup.program_via]
  congr 1
  funext result
  cases result with
  | error err => exact horigin none
  | ok records => exact horigin (best records)

variable [DigestCrate]

omit [UrlCrate] [IoHttpCrate] in
theorem DiscoveryPacc.program_via (url : Url) (domain : String) (resolver resolver' : Url) :
    (program url domain resolver).interpret (Exchange.via resolver') =
      program url domain resolver' := by
  unfold program
  rw [Prog.interpret_bind, DiscoveryHttpGet.program, HttpFetch.program_via]
  congr 1
  funext fetched
  cases fetched with
  | error err => rfl
  | ok body => exact DiscoveryDnsTxt.bind_via (finish body) (txtQname domain) resolver resolver'

def DiscoveryComposeClientStd.atResolver (self : DiscoveryComposeClientStd) (resolver : Url) :
    DiscoveryComposeClientStd :=
  { self with dns := resolver }

namespace Job

theorem program_via (client : DiscoveryComposeClientStd) (resolver : Url) (job : Job) :
    (job.program client).interpret (Exchange.via resolver) =
      job.program (client.atResolver resolver) := by
  cases job with
  | check domain => exact DiscoveryDnsProbe.program_via domain client.dns resolver
  | mx domain => exact DnsLookup.program_via .mx readMx domain client.dns resolver
  | pacc domain =>
    simp only [program]
    cases DiscoveryPacc.url domain with
    | error err => rfl
    | ok url => exact DiscoveryPacc.program_via url domain client.dns resolver
  | isp url => rfl
  | mailconf domain =>
    exact DiscoveryDnsTxt.bind_via DiscoveryMailconf.finish domain client.dns resolver
  | cname host => exact DnsLookup.program_via .a readCname host client.dns resolver
  | srv domain => exact SrvSeries.program_via _ client.dns resolver _ _
  | dav domain service =>
    exact DiscoveryDavResolve.program_via domain service client.dns resolver client.secureOnly
  | jmap domain => exact DiscoveryJmapResolve.program_via domain client.dns resolver
  | wellKnown origin service =>
    exact interpret_noDns resolver
      (DiscoveryWellKnown.always DiscoveryDavResolve.walksStay_noDns fun _ _ => trivial)
  | auth url =>
    have halways : (DiscoveryHttpWalk.program .schemes (HttpRequest.get url)).Always
        DiscoveryDavResolve.NoDns (fun _ _ => True) fun _ => True :=
      (DiscoveryHttpWalk.always .schemes DiscoveryDavResolve.walksStay_noDns trivial).mono
        fun _ _ => trivial
    have hwalk := interpret_noDns resolver halways
    simp only [program, DiscoveryProbeAuth.program]
    rw [Prog.interpret_bind, hwalk]
    rfl
  | oauthServer url => rfl
  | oauthResource url => rfl

/-- Two runs of a job, at two resolvers that answer the same messages, end alike and ask the same but for
where they put the DNS questions, whatever the transports are and however the bytes come in. -/
theorem outcome_atResolver (client : DiscoveryComposeClientStd) (resolver : Url) (job : Job)
    {o o' : Network} (hsame : o.via client.dns = o'.via resolver) {args args' : List (Option Bytes)}
    (hargs : Serves exchanges o (job.program client) args)
    (hargs' : Serves exchanges o' (job.program (client.atResolver resolver)) args') :
    (job.program (client.atResolver resolver)).asked o' =
        ((job.program client).asked o).map (Exchange.toResolver resolver) ∧
      ∃ result,
        outcome (job.machine client).resume (job.machine client).start (none :: args) = some result ∧
        outcome (job.machine (client.atResolver resolver)).resume
          (job.machine (client.atResolver resolver)).start (none :: args') = some result := by
  have heval : ∀ resolver' (o : Network), (job.program (client.atResolver resolver')).eval o =
      (job.program client).eval (o.via resolver') := by
    intro resolver' o
    rw [← program_via, Prog.eval_interpret]
    rfl
  have hasked : ∀ resolver' (o : Network), (job.program (client.atResolver resolver')).asked o =
      ((job.program client).asked (o.via resolver')).map (Exchange.toResolver resolver') := by
    intro resolver' o
    rw [← program_via, Prog.asked_interpret, List.map_eq_flatMap]
    simp only [Exchange.asked_via]
    rfl
  have hself : client.atResolver client.dns = client := rfl
  constructor
  · have hhere := hasked client.dns o
    rw [hself] at hhere
    rw [hasked resolver o', hhere, hsame, List.map_map]
    apply List.map_congr_left
    intro q _
    exact (Exchange.toResolver_toResolver resolver client.dns q).symm
  · have hhere := heval client.dns o
    rw [hself] at hhere
    refine ⟨_, (job.machine_performs client).outcome_eq hargs, ?_⟩
    rw [hhere, hsame, ← heval resolver o']
    exact (job.machine_performs (client.atResolver resolver)).outcome_eq hargs'

end Job
end

/-- A message that is text, as a plain response has to be. -/
def textMessage : Bytes := Text.bytes "pppppppppppp"

def textNetwork : Network
  | .dns _ _ _ => .ok textMessage
  | .hop _ _ _ => .error "unexpected EOF"
  | .send _ => .failed "unexpected EOF"

def webResolver : Url := { exampleOrigin with host := some "dns.example.org" }

theorem check_outcome_atResolver :
    letI := plainUrl
    letI := plainDns
    letI := plainHttp
    letI := plainSerde
    letI := DiscoveryPacc.vouchedCrates
    let client := DiscoveryComposeClientStd.new exampleResolver
    let web := client.atResolver webResolver
    let response := Text.bytes ("HTTP/1.1 200 OK\r\n\r\n" ++ "pppppppppppp")
    ∃ result,
      outcome ((Job.check "example.org").machine client).resume
        ((Job.check "example.org").machine client).start
        [none, none, some (framed textMessage)] = some result ∧
      outcome ((Job.check "example.org").machine web).resume
        ((Job.check "example.org").machine web).start [none, none, some response] = some result := by
  let _ := plainUrl
  let _ := plainDns
  let _ := plainHttp
  let _ := plainSerde
  let _ := DiscoveryPacc.vouchedCrates
  let client := DiscoveryComposeClientStd.new exampleResolver
  have hsame : textNetwork.via client.dns = textNetwork.via webResolver := by
    funext q
    cases q <;> rfl
  have hserves : serves exchanges textNetwork ((Job.check "example.org").program client)
      [[none, some (framed textMessage)]] = true := by
    decide +kernel
  have hserves' : serves exchanges textNetwork
      ((Job.check "example.org").program (client.atResolver webResolver))
      [[none, some (Text.bytes ("HTTP/1.1 200 OK\r\n\r\n" ++ "pppppppppppp"))]] = true := by
    decide +kernel
  exact (Job.outcome_atResolver client webResolver (.check "example.org") hsame
    (serves_sound hserves) (serves_sound hserves')).2

end PimDiscovery
