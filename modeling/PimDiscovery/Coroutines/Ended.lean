import PimDiscovery.Compose.Machines
import PimDiscovery.Coroutines.Effort
import PimDiscovery.Pacc.Vouched

/-! Once nothing can be read or written any more, every coroutine the client runs comes to its end, within
a number of rounds that does not depend on what it has been handed. -/

namespace PimDiscovery
open Interaction

/-- However far an exchange of `io-http` has got, `k` ends of the stream in a row end it. -/
structure EndsAtEof [IoHttpCrate] (k : Nat) : Prop where
  pos : 0 < k
  send : ∀ url request args send,
    Resumed (resumeRequest url) (IoHttpCrate.newSend request) (none :: args) send →
      ∃ n ≤ k, ∃ result, outcome (resumeRequest url) send (List.replicate n (some [])) = some result
  wellKnown : ∀ url request args send,
    Resumed (resumeHop url) (IoHttpCrate.newWellKnown request) (none :: args) send →
      ∃ n ≤ k, ∃ result, outcome (resumeHop url) send (List.replicate n (some [])) = some result

section
variable [IoHttpCrate]

theorem resumeHop_keeps {url : Url} {request : HttpRequest} (args : List (Option Bytes))
    {send : IoHttpCrate.WellKnown} {arg : Option Bytes}
    (hnext : ∀ y next, resumeHop url send arg = .yielded y next →
      Resumed (resumeHop url) (IoHttpCrate.newWellKnown request) (none :: args) next) :
    (resumeHop url send arg).Keeps fun next =>
      ∃ args, Resumed (resumeHop url) (IoHttpCrate.newWellKnown request) (none :: args) next := by
  cases hs : resumeHop url send arg with
  | yielded y next => exact ⟨args, hnext y next hs⟩
  | complete result => trivial
  | panicked =>
    unfold resumeHop at hs
    split at hs <;> cases hs

theorem resumeRequest_keeps {url : Url} {request : HttpRequest} (args : List (Option Bytes))
    {send : IoHttpCrate.Send} {arg : Option Bytes}
    (hnext : ∀ y next, resumeRequest url send arg = .yielded y next →
      Resumed (resumeRequest url) (IoHttpCrate.newSend request) (none :: args) next) :
    (resumeRequest url send arg).Keeps fun next =>
      ∃ args, Resumed (resumeRequest url) (IoHttpCrate.newSend request) (none :: args) next := by
  cases hs : resumeRequest url send arg with
  | yielded y next => exact ⟨args, hnext y next hs⟩
  | complete result => trivial
  | panicked =>
    unfold resumeRequest at hs
    split at hs <;> cases hs

namespace DiscoveryDnsExchange

def finishHttp : HttpSendEnd → Except DiscoveryDnsExchangeError Bytes
  | .response response =>
    if !response.isSuccess then .error (.httpStatus response.status) else .ok response.body
  | .redirect _ response => .error (.httpStatus response.status)
  | .failed err => .error (.http err)

def ofSend (resolver : Url) (send : IoHttpCrate.Send) : DiscoveryDnsExchange :=
  { resolver, state := .http send }

theorem resume_ofSend (resolver : Url) (send : IoHttpCrate.Send) (arg : Option Bytes) :
    (ofSend resolver send).resume arg =
      ((resumeRequest resolver send arg).mapState (ofSend resolver)).mapResult finishHttp := by
  unfold resume resumeRequest
  simp only [ofSend]
  obtain ⟨state, next⟩ := IoHttpCrate.resumeSend send arg
  rcases state with (_ | _ | _) | (_ | response)
  · rfl
  · rfl
  · rfl
  · rfl
  · simp only [Step.mapState, Step.mapResult, finishHttp]
    split <;> rfl

theorem outcome_ofSend (resolver : Url) (send : IoHttpCrate.Send) (args : List (Option Bytes)) :
    outcome resume (ofSend resolver send) args =
      (outcome (resumeRequest resolver) send args).map finishHttp := by
  have hstep : ∀ send arg, ((resumeRequest resolver send arg).mapResult finishHttp).mapState
      (ofSend resolver) = resume (ofSend resolver send) arg := by
    intro send arg
    rw [resume_ofSend]
    cases resumeRequest resolver send arg <;> rfl
  rw [← outcome_mapState hstep send args, outcome_mapResult]

def Started (self : DiscoveryDnsExchange) : Prop :=
  match self.state with
  | .tcpRead _ => True
  | .http send => ∃ request args,
    Resumed (resumeRequest self.resolver) (IoHttpCrate.newSend request) (none :: args) send
  | .tcpWrite _ | .done => False

theorem keeps_ofSend {resolver : Url} {send : IoHttpCrate.Send} (request : HttpRequest)
    {arg : Option Bytes} (h : (resumeRequest resolver send arg).Keeps fun next =>
      ∃ args, Resumed (resumeRequest resolver) (IoHttpCrate.newSend request) (none :: args) next) :
    ((ofSend resolver send).resume arg).Keeps Started := by
  rw [resume_ofSend]
  have hstate : ∀ next, (∃ args, Resumed (resumeRequest resolver) (IoHttpCrate.newSend request)
      (none :: args) next) → (ofSend resolver next).Started :=
    fun next hargs => ⟨request, hargs⟩
  exact (h.mapState hstate).mapResult finishHttp

theorem start_keeps (message : Bytes) (resolver : Url) :
    ((new message resolver).resume none).Keeps Started := by
  have hsend : ∀ request,
      ((ofSend resolver (IoHttpCrate.newSend request)).resume none).Keeps Started := by
    intro request
    apply keeps_ofSend request
    apply resumeRequest_keeps []
    intro y next hs
    exact .yielded hs (.refl next)
  unfold new
  split
  · exact hsend _
  · exact hsend _
  · trivial

theorem started_keeps {self : DiscoveryDnsExchange} (arg : Option Bytes) (h : self.Started) :
    (self.resume arg).Keeps Started := by
  obtain ⟨resolver, state⟩ := self
  cases state with
  | tcpWrite bytes => exact h.elim
  | done => exact h.elim
  | tcpRead response =>
    simp only [resume]
    split
    · trivial
    · split <;> trivial
  | http send =>
    obtain ⟨request, args, hresumed⟩ := h
    apply keeps_ofSend request
    apply resumeRequest_keeps (args ++ [arg])
    intro y next hs
    exact hresumed.snoc hs

theorem started_ends {k : Nat} (h : EndsAtEof k) {self : DiscoveryDnsExchange} (hs : self.Started) :
    ∃ n ≤ k, ∃ answer, outcome resume self (List.replicate n (some [])) = some answer := by
  obtain ⟨resolver, state⟩ := self
  cases state with
  | tcpWrite bytes => exact hs.elim
  | done => exact hs.elim
  | tcpRead response => exact ⟨1, h.pos, .error .eof, by simp [outcome, resume]⟩
  | http send =>
    obtain ⟨request, args, hresumed⟩ := hs
    obtain ⟨n, hn, result, hresult⟩ := h.send resolver request args send hresumed
    have hends := outcome_ofSend resolver send (List.replicate n (some []))
    rw [hresult] at hends
    exact ⟨n, hn, finishHttp result, hends⟩

end DiscoveryDnsExchange

variable [DomainCrate]

namespace Exchange

def Started : (q : Exchange) → exchanges.State q → Prop
  | dns _ _ _, self => DiscoveryDnsExchange.Started self
  | hop _ _ request, state => ∃ args,
    Resumed (resumeHop request.url) (IoHttpCrate.newWellKnown request) (none :: args) state
  | send request, state => ∃ args,
    Resumed (resumeRequest request.url) (IoHttpCrate.newSend request) (none :: args) state

theorem endsOn {k : Nat} (h : EndsAtEof k) : EndsOn exchanges Started [] k where
  start q := by
    cases q with
    | dns qtype name resolver => exact DiscoveryDnsExchange.start_keeps _ resolver
    | hop walk hops request =>
      apply resumeHop_keeps []
      intro y next hs
      exact .yielded hs (.refl next)
    | send request =>
      apply resumeRequest_keeps []
      intro y next hs
      exact .yielded hs (.refl next)
  keeps q s arg hs := by
    cases q with
    | dns qtype name resolver => exact DiscoveryDnsExchange.started_keeps arg hs
    | hop walk hops request =>
      obtain ⟨args, hresumed⟩ := hs
      apply resumeHop_keeps (args ++ [arg])
      intro y next hs
      exact hresumed.snoc hs
    | send request =>
      obtain ⟨args, hresumed⟩ := hs
      apply resumeRequest_keeps (args ++ [arg])
      intro y next hs
      exact hresumed.snoc hs
  ends q s hs := by
    cases q with
    | dns qtype name resolver => exact DiscoveryDnsExchange.started_ends h hs
    | hop walk hops request =>
      obtain ⟨args, hresumed⟩ := hs
      exact h.wellKnown request.url request args s hresumed
    | send request =>
      obtain ⟨args, hresumed⟩ := hs
      exact h.send request.url request args s hresumed

end Exchange
end

theorem Protocol.Within.total {α : Type} {program : Protocol α} {budget : Budget}
    (h : program.Within budget) :
    program.AtMost (fun _ => true)
      (budget.srvLookups + budget.txtLookups + (budget.requests + budget.others)) := by
  have hdns := (h .srvLookups).or (h .txtLookups)
  have hhttp := (h .requests).or (h .others)
  have hcounts : (fun q => (Effort.srvLookups.counts q || Effort.txtLookups.counts q) ||
      (Effort.requests.counts q || Effort.others.counts q)) = fun _ => true := by
    funext q
    cases q with
    | dns qtype name resolver => cases qtype <;> rfl
    | hop walk hops request => simp [Effort.counts]
    | send request => rfl
  have hall := hdns.or hhttp
  rw [hcounts] at hall
  exact hall

theorem HttpFetch.atMost_one {ρ : Type} [IoHttpCrate] (request : Url → HttpRequest)
    (finish : HttpSendEnd → ρ) (url : Url) :
    (program request finish url).AtMost (fun _ => true) 1 :=
  Prog.AtMost.ask (n := 0) fun _ => trivial

theorem DnsLookup.atMost_one [DomainCrate] {ρ : Type} (qtype : QType)
    (read : String → List MessageItem → ρ) (domain : String) (resolver : Url) :
    (program qtype read domain resolver).AtMost (fun _ => true) 1 := by
  unfold program
  cases queryMessage qtype domain with
  | error err => trivial
  | ok message => exact Prog.AtMost.ask (n := 0) fun _ => trivial

theorem DiscoveryDnsProbe.atMost_one [DomainCrate] (domain : String) (resolver : Url) :
    (program domain resolver).AtMost (fun _ => true) 1 := by
  unfold program
  cases queryMessage .soa domain with
  | error err => trivial
  | ok message => exact Prog.AtMost.ask (n := 0) fun _ => trivial

section
variable [UrlCrate] [DomainCrate] [IoHttpCrate] [SerdeCrate] [DigestCrate]

omit [UrlCrate] in
theorem DiscoveryPacc.atMost_two (url : Url) (domain : String) (resolver : Url) :
    (program url domain resolver).AtMost (fun _ => true) 2 := by
  refine (HttpFetch.atMost_one DiscoveryHttpGet.request DiscoveryHttpGet.finish url).bind (n := 1)
    fun fetched => ?_
  cases fetched with
  | error err => trivial
  | ok body =>
    refine (DnsLookup.atMost_one .txt readTxt (txtQname domain) resolver).bind (n := 0) fun _ => ?_
    trivial

namespace Job

def exchangesLimit : Job → Nat
  | check _ | mx _ | isp _ | mailconf _ | cname _ | oauthServer _ | oauthResource _ => 1
  | pacc _ => 2
  | srv _ => 4
  | dav _ _ => 23
  | jmap _ => 7
  | wellKnown _ _ | auth _ => 6

theorem atMost_exchangesLimit (client : DiscoveryComposeClientStd) (job : Job) :
    (job.program client).AtMost (fun _ => true) job.exchangesLimit := by
  cases job with
  | check domain => exact DiscoveryDnsProbe.atMost_one domain client.dns
  | mx domain => exact DnsLookup.atMost_one .mx readMx domain client.dns
  | pacc domain =>
    simp only [program]
    cases DiscoveryPacc.url domain with
    | error err => trivial
    | ok url => exact DiscoveryPacc.atMost_two url domain client.dns
  | isp url =>
    refine (HttpFetch.atMost_one DiscoveryHttpGet.request DiscoveryHttpGet.finish url).bind (n := 0)
      fun _ => ?_
    trivial
  | mailconf domain =>
    refine (DnsLookup.atMost_one .txt readTxt domain client.dns).bind (n := 0) fun _ => ?_
    trivial
  | cname host => exact DnsLookup.atMost_one .a readCname host client.dns
  | srv domain => exact (SrvSeries.program_within _ client.dns _ _).total
  | dav domain service => exact (DiscoveryDavResolve.program_within domain service client.dns _).total
  | jmap domain => exact (DiscoveryJmapResolve.program_within domain client.dns).total
  | wellKnown origin service => exact (DiscoveryDavResolve.wellKnown_within origin service).total
  | auth url =>
    exact (DiscoveryHttpWalk.program_within .schemes (HttpRequest.get url)).bind_pure.total
  | oauthServer url => exact HttpFetch.atMost_one _ _ url
  | oauthResource url => exact HttpFetch.atMost_one _ _ url

/-- From the first round whose I/O fails for good, a run has at most `k` rounds left for each exchange the
job may still make. -/
theorem run_ends {k : Nat} (h : EndsAtEof k) (client : DiscoveryComposeClientStd) (job : Job)
    (script dead : List StreamIo) (hdead : ∀ io ∈ dead, io.result = none)
    (hlength : k * job.exchangesLimit ≤ dead.length) :
    (job.run client (script ++ dead)).2.isSome = true := by
  rw [run_eq_pumped]
  have hfailed : ∀ io ∈ dead, ∀ pool y, (runYield pool y io).2.1 = some [] := by
    intro io hio pool y
    have hnone := hdead io hio
    cases y with
    | wantsRead url =>
      simp only [runYield, hnone]
      generalize pool.get url io.connects = got
      obtain ⟨_ | stream, pool'⟩ := got <;> rfl
    | wantsWrite url bytes =>
      simp only [runYield, hnone]
      generalize pool.get url io.connects = got
      obtain ⟨_ | stream, pool'⟩ := got <;> rfl
  exact (job.machine_performs client).ends (Exchange.endsOn h) (job.atMost_exchangesLimit client) hfailed
    hlength client.pool script

end Job
end

theorem plainHttp_endsAtEof : @EndsAtEof plainHttp 2 := by
  let _ := plainHttp
  refine ⟨by decide, fun url request args state _ => ?_, fun url request args state _ => ?_⟩
  · match state with
    | .write _ => exact ⟨2, by decide, _, rfl⟩
    | .written _ | .read _ => exact ⟨1, by decide, _, rfl⟩
  · match state with
    | .write _ => exact ⟨2, by decide, _, rfl⟩
    | .written _ | .read _ => exact ⟨1, by decide, _, rfl⟩

theorem Job.dav_run_ends :
    letI := plainUrl
    letI := plainDns
    letI := plainHttp
    letI := plainSerde
    letI := DiscoveryPacc.vouchedCrates
    let client := DiscoveryComposeClientStd.new exampleResolver
    let lost : StreamIo := { connects := false, result := none }
    (Job.run client (.dav "example.org" .caldav)
      ({ connects := true, result := some [] } :: List.replicate 46 lost)).2.isSome = true := by
  let _ := plainUrl
  let _ := plainDns
  let _ := plainHttp
  let _ := plainSerde
  let _ := DiscoveryPacc.vouchedCrates
  intro client lost
  have hlost : ∀ io ∈ List.replicate 46 lost, io.result = none := by
    intro io hio
    rw [List.eq_of_mem_replicate hio]
  exact Job.run_ends plainHttp_endsAtEof client (.dav "example.org" .caldav)
    [{ connects := true, result := some [] }] (List.replicate 46 lost) hlost (by decide)

end PimDiscovery
