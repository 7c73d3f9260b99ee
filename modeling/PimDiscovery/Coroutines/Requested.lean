import PimDiscovery.Compose.Machines
import PimDiscovery.Pacc.Vouched

/-! A coroutine writes its request to a server before it waits for a byte of it, whatever comes back. -/

namespace PimDiscovery
open Interaction

def Exchange.target : Exchange → Url
  | dns _ _ resolver => resolver
  | hop _ _ request => request.url
  | send request => request.url

def DiscoveryYield.isWrite : DiscoveryYield → Bool
  | wantsRead _ => false
  | wantsWrite _ _ => true

/-- A request goes out before `io-http` reads of its response. -/
structure RequestsFirst [IoHttpCrate] : Prop where
  send : ∀ request send,
    IoHttpCrate.resumeSend (IoHttpCrate.newSend request) none ≠ (.yielded .wantsRead, send)
  wellKnown : ∀ request send,
    IoHttpCrate.resumeWellKnown (IoHttpCrate.newWellKnown request) none ≠ (.yielded .wantsRead, send)

section
variable [IoHttpCrate]

theorem DiscoveryDnsExchange.resume_target {self next : DiscoveryDnsExchange} {arg : Option Bytes}
    {y : DiscoveryYield} (h : self.resume arg = .yielded y next) :
    y.url = self.resolver ∧ next.resolver = self.resolver := by
  unfold resume at h
  cases hs : self.state with
  | tcpWrite bytes =>
    simp only [hs] at h
    obtain ⟨rfl, rfl⟩ := Step.yielded.inj h
    exact ⟨rfl, rfl⟩
  | tcpRead response =>
    simp only [hs] at h
    split at h
    · cases h
    · split at h
      · cases h
      · obtain ⟨rfl, rfl⟩ := Step.yielded.inj h
        exact ⟨rfl, rfl⟩
  | http send =>
    simp only [hs] at h
    split at h
    · obtain ⟨rfl, rfl⟩ := Step.yielded.inj h
      exact ⟨rfl, rfl⟩
    · obtain ⟨rfl, rfl⟩ := Step.yielded.inj h
      exact ⟨rfl, rfl⟩
    · cases h
    · split at h <;> cases h
    · cases h
  | done =>
    simp only [hs] at h
    cases h

theorem DiscoveryDnsExchange.new_resolver (message : Bytes) (resolver : Url) :
    (new message resolver).resolver = resolver := by
  unfold new
  split <;> rfl

theorem DiscoveryDnsExchange.first_isWrite (h : RequestsFirst) {message : Bytes} {resolver : Url}
    {next : DiscoveryDnsExchange} {y : DiscoveryYield}
    (hres : (new message resolver).resume none = .yielded y next) : y.isWrite = true := by
  have hsend := h.send
  have hstate : (∃ request, (new message resolver).state = .http (IoHttpCrate.newSend request)) ∨
      (new message resolver).state = .tcpWrite (framed message) := by
    unfold new
    split
    · exact .inl ⟨_, rfl⟩
    · exact .inl ⟨_, rfl⟩
    · exact .inr rfl
  unfold resume at hres
  rcases hstate with ⟨request, hs⟩ | hs
  · have hfirst := hsend request
    simp only [hs] at hres
    split at hres
    · exact absurd ‹_› (hfirst _)
    · obtain ⟨rfl, rfl⟩ := Step.yielded.inj hres
      rfl
    · cases hres
    · split at hres <;> cases hres
    · cases hres
  · simp only [hs] at hres
    obtain ⟨rfl, rfl⟩ := Step.yielded.inj hres
    rfl

theorem resumeHop_isWrite (h : RequestsFirst) {url : Url} {request : HttpRequest}
    {next : IoHttpCrate.WellKnown} {y : DiscoveryYield}
    (hres : resumeHop url (IoHttpCrate.newWellKnown request) none = .yielded y next) :
    y.isWrite = true := by
  have hfirst := h.wellKnown request
  unfold resumeHop at hres
  split at hres
  · exact absurd ‹_› (hfirst _)
  · obtain ⟨rfl, rfl⟩ := Step.yielded.inj hres
    rfl
  · cases hres

theorem resumeRequest_isWrite (h : RequestsFirst) {url : Url} {request : HttpRequest}
    {next : IoHttpCrate.Send} {y : DiscoveryYield}
    (hres : resumeRequest url (IoHttpCrate.newSend request) none = .yielded y next) :
    y.isWrite = true := by
  have hfirst := h.send request
  unfold resumeRequest at hres
  split at hres
  · exact absurd ‹_› (hfirst _)
  · obtain ⟨rfl, rfl⟩ := Step.yielded.inj hres
    rfl
  · cases hres
  · cases hres
  · cases hres

end

section
variable [DomainCrate] [IoHttpCrate]

namespace Exchange

def Targets : (q : Exchange) → exchanges.State q → Prop
  | dns _ _ resolver, self => self.resolver = resolver
  | hop _ _ _, _ => True
  | send _, _ => True

theorem targets_start (q : Exchange) : q.Targets (exchanges.start q) := by
  cases q with
  | dns qtype name resolver => exact DiscoveryDnsExchange.new_resolver _ resolver
  | hop walk hops request => trivial
  | send request => trivial

theorem resume_targets {q : Exchange} {s next : exchanges.State q} {arg : Option Bytes}
    {y : DiscoveryYield} (hs : q.Targets s) (h : exchanges.resume q s arg = .yielded y next) :
    y.url = q.target ∧ q.Targets next := by
  cases q with
  | dns qtype name resolver =>
    obtain ⟨hurl, hnext⟩ := DiscoveryDnsExchange.resume_target h
    exact ⟨hurl.trans hs, hnext.trans hs⟩
  | hop walk hops request => exact ⟨resumeHop_url h, trivial⟩
  | send request => exact ⟨resumeRequest_url h, trivial⟩

theorem first_isWrite (h : RequestsFirst) {q : Exchange} {next : exchanges.State q}
    {y : DiscoveryYield} (hres : exchanges.resume q (exchanges.start q) none = .yielded y next) :
    y.isWrite = true := by
  cases q with
  | dns qtype name resolver => exact DiscoveryDnsExchange.first_isWrite h hres
  | hop walk hops request => exact resumeHop_isWrite h hres
  | send request => exact resumeRequest_isWrite h hres

/-- By induction on the inputs: every state of an exchange yields for its target. -/
theorem yields_target (q : Exchange) {s : exchanges.State q} (hs : q.Targets s)
    (args : List (Option Bytes)) : ∀ y ∈ yields (exchanges.resume q) s args, y.url = q.target := by
  induction args generalizing s with
  | nil => exact List.forall_mem_nil _
  | cons arg args ih =>
    unfold yields
    cases hres : exchanges.resume q s arg with
    | yielded y next =>
      obtain ⟨hurl, hnext⟩ := resume_targets hs hres
      exact List.forall_mem_cons.mpr ⟨hurl, ih hnext⟩
    | complete answer => exact List.forall_mem_nil _
    | panicked => exact List.forall_mem_nil _

theorem yields_opened (h : RequestsFirst) (q : Exchange) (args : List (Option Bytes)) :
    Opened DiscoveryYield.url DiscoveryYield.isWrite
      (yields (exchanges.resume q) (exchanges.start q) (none :: args)) := by
  have htarget := yields_target q (targets_start q) (none :: args)
  unfold yields at htarget ⊢
  cases hres : exchanges.resume q (exchanges.start q) none with
  | yielded y next =>
    rw [hres] at htarget
    obtain ⟨hurl, hrest⟩ := List.forall_mem_cons.mp htarget
    have hfirst := first_isWrite h hres
    apply Opened.of_first hfirst
    intro z hz
    exact (hrest z hz).trans hurl.symm
  | complete answer => exact Opened.nil
  | panicked => exact Opened.nil

end Exchange
end

section
variable [UrlCrate] [DomainCrate] [IoHttpCrate] [SerdeCrate] [DigestCrate]

omit [UrlCrate] [DomainCrate] [SerdeCrate] [DigestCrate] [IoHttpCrate] in
theorem HttpFetch.always_target {ρ : Type} {heard : Hearing} {request : Url → HttpRequest}
    (finish : HttpSendEnd → ρ) (hurl : ∀ url, (request url).url = url) (url : Url) :
    (program request finish url).Always (fun q => q.target = url) heard fun _ => True :=
  ⟨hurl url, fun _ _ => trivial⟩

omit [UrlCrate] [DomainCrate] [SerdeCrate] [DigestCrate] [IoHttpCrate] in
def RedirectsTo (heard : Hearing) (url : Url) : Prop :=
  ∃ walk hops request output, heard (.hop walk hops request) (.ok output) ∧ output.redirectUrl = some url

def FirstSrv (heard : Hearing) (resolver : Url) (qname : String) (srv : Srv) : Prop :=
  ∃ answer records, heard (.dns .srv qname resolver) answer ∧
    DnsLookup.finish readSrv qname answer = .ok records ∧ records.head? = some srv

structure FixesDav (heard : Hearing) (resolver : Url) (domain : String) (service : DiscoveryDavService)
    (record : Option (Bool × DiscoverySrvService)) (origin : Url) : Prop where
  named : ∀ found, record = some found →
    ∃ srv, FirstSrv heard resolver (service.srvQname found.1 domain) srv ∧ found.2 = intoService srv
  built : DiscoveryDavResolve.origin domain record = .ok origin

inductive DavContact (heard : Hearing) (resolver : Url) (domain : String) (service : DiscoveryDavService) :
    Url → Prop where
  | resolver : DavContact heard resolver domain service resolver
  | origin {record : Option (Bool × DiscoverySrvService)} {origin : Url}
      (h : FixesDav heard resolver domain service record origin) :
      DavContact heard resolver domain service origin
  | wellKnown {record : Option (Bool × DiscoverySrvService)} {origin : Url} {request : HttpRequest}
      (h : FixesDav heard resolver domain service record origin)
      (hrequest : IoHttpCrate.prepareRequest (UrlCrate.asStr origin) service.serviceName = .ok request) :
      DavContact heard resolver domain service request.url
  | txtPath {record : Bool × DiscoverySrvService} {origin root : Url} {path : String}
      {answer : Except DiscoveryDnsExchangeError Bytes}
      (h : FixesDav heard resolver domain service (some record) origin)
      (hheard : heard (.dns .txt (service.srvQname record.1 domain) resolver) answer)
      (hpath : DiscoveryWebdavTxt.finish
        (DnsLookup.finish readTxt (service.srvQname record.1 domain) answer) = .ok (some path))
      (hroot : UrlCrate.join origin path = .ok root) : DavContact heard resolver domain service root
  | redirected {url : Url} (h : RedirectsTo heard url) : DavContact heard resolver domain service url

inductive JmapContact (heard : Hearing) (resolver : Url) (domain : String) : Url → Prop where
  | resolver : JmapContact heard resolver domain resolver
  | wellKnown {srv : Option Srv} {origin : Url}
      (hsrv : ∀ found, srv = some found →
        FirstSrv heard resolver (DiscoveryJmapResolve.srvQname domain) found)
      (horigin : DiscoveryJmapResolve.origin domain (DiscoveryJmapResolve.best srv.toList) = .ok origin) :
      JmapContact heard resolver domain (origin.setPath "/.well-known/jmap")
  | redirected {url : Url} (h : RedirectsTo heard url) : JmapContact heard resolver domain url

omit [UrlCrate] [DomainCrate] [SerdeCrate] [DigestCrate] [IoHttpCrate] in
theorem walksStay_redirects {heard : Hearing} {good : Url → Prop}
    (h : ∀ url, RedirectsTo heard url → good url) :
    WalksStay (fun q => good q.target) heard good where
  asks _ _ _ hgood := hgood
  redirect walk hops request output _ hheard next hnext :=
    h next ⟨walk, hops, request, output, hheard, hnext⟩

omit [UrlCrate] [SerdeCrate] [DigestCrate] [IoHttpCrate] in
/-- A report is put together of what lookups that were heard put first. -/
theorem SrvSeries.always_heard {ρ : Type} {asks : Exchange → Prop} {heard : Hearing} {inv : ρ → Prop}
    {domain : String} {resolver : Url} (left : List (SrvLookup ρ)) (h : AsksDns asks .srv resolver)
    (hset : ∀ lookup ∈ left, ∀ report best, inv report →
      (∀ srv, best = some srv → FirstSrv heard resolver (lookup.qname domain) srv) →
        inv (lookup.set report (best.map intoService))) (report : ρ) (hreport : inv report) :
    (program domain resolver left report).Always asks heard
      fun result => ∀ report, result = .ok report → inv report := by
  induction left generalizing report with
  | nil =>
    intro last hlast
    obtain rfl := Except.ok.inj hlast
    exact hreport
  | cons lookup left ih =>
    obtain ⟨hfirst, hrest⟩ := List.forall_mem_cons.mp hset
    refine (DnsLookup.always .srv readSrv h).bind fun result hresult => ?_
    cases result with
    | error err =>
      intro last hlast
      cases hlast
    | ok records =>
      obtain ⟨answer, hheard, hread⟩ := hresult records rfl
      apply ih hrest
      apply hfirst report records.head? hreport
      exact fun srv hsrv => ⟨answer, records, hheard, hread, hsrv⟩

section
variable (heard : Hearing) (resolver : Url) (domain : String)

def FromFirst (qname : String) (slot : Option DiscoverySrvService) : Prop :=
  ∀ found, slot = some found → ∃ srv, FirstSrv heard resolver qname srv ∧ found = intoService srv

structure DavReport (report : DiscoveryWebdavSrvReport) : Prop where
  caldav : FromFirst heard resolver (DiscoveryDavService.caldav.srvQname false domain) report.caldav
  caldavs : FromFirst heard resolver (DiscoveryDavService.caldav.srvQname true domain) report.caldavs
  carddav : FromFirst heard resolver (DiscoveryDavService.carddav.srvQname false domain) report.carddav
  carddavs : FromFirst heard resolver (DiscoveryDavService.carddav.srvQname true domain) report.carddavs

end

section
variable {heard : Hearing} {resolver : Url} {domain : String} {service : DiscoveryDavService}

omit [UrlCrate] [SerdeCrate] [DigestCrate] [IoHttpCrate] in
theorem webdavSrv_heard {asks : Exchange → Prop} (h : AsksDns asks .srv resolver) :
    (DiscoveryWebdavSrv.program domain resolver).Always asks heard fun result =>
      ∀ report, result = .ok report → DavReport heard resolver (Text.trimMatches domain '.') report := by
  have hslot : ∀ {qname : String} {best : Option Srv},
      (∀ srv, best = some srv → FirstSrv heard resolver qname srv) →
        FromFirst heard resolver qname (best.map intoService) := by
    intro qname best hbest found hfound
    obtain ⟨srv, hsrv, rfl⟩ := Option.map_eq_some_iff.mp hfound
    exact ⟨srv, hbest srv hsrv, rfl⟩
  apply SrvSeries.always_heard _ h
  · simp only [List.forall_mem_cons, List.not_mem_nil, false_imp_iff, implies_true, and_true]
    refine ⟨?_, ?_, ?_, ?_⟩
    · exact fun report best hreport hbest => { hreport with caldav := hslot hbest }
    · exact fun report best hreport hbest => { hreport with caldavs := hslot hbest }
    · exact fun report best hreport hbest => { hreport with carddav := hslot hbest }
    · exact fun report best hreport hbest => { hreport with carddavs := hslot hbest }
  · have hempty : ∀ qname, FromFirst heard resolver qname none := by
      intro qname found hfound
      cases hfound
    exact ⟨hempty _, hempty _, hempty _, hempty _⟩

omit [SerdeCrate] [DigestCrate] in
theorem tryRecord_contacts {record : Option (Bool × DiscoverySrvService)}
    (hrecord : ∀ found, record = some found →
      ∃ srv, FirstSrv heard resolver (service.srvQname found.1 domain) srv ∧ found.2 = intoService srv) :
    (DiscoveryDavResolve.tryRecord service domain resolver record).Always
      (fun q => DavContact heard resolver domain service q.target) heard fun _ => True := by
  unfold DiscoveryDavResolve.tryRecord
  cases horigin : DiscoveryDavResolve.origin domain record with
  | error err => trivial
  | ok origin =>
    have hfixes : FixesDav heard resolver domain service record origin := ⟨hrecord, horigin⟩
    have hstay : WalksStay (fun q => DavContact heard resolver domain service q.target) heard
        (DavContact heard resolver domain service) := walksStay_redirects fun _ => .redirected
    have hprobe : ∀ request,
        IoHttpCrate.prepareRequest (UrlCrate.asStr origin) service.serviceName = .ok request →
          DavContact heard resolver domain service request.url := fun _ => .wellKnown hfixes
    cases record with
    | none =>
      exact (DiscoveryDavResolve.tryWellKnown_always hstay (.origin hfixes) hprobe).mono
        fun _ _ => trivial
    | some found =>
      refine (DiscoveryWebdavTxt.always fun _ _ _ => DavContact.resolver).bind fun result hresult => ?_
      refine (DiscoveryDavResolve.afterTxt_always hstay (.origin hfixes) hprobe
        fun path hpath root hroot => ?_).mono fun _ _ => trivial
      obtain ⟨answer, hanswer, hread⟩ := hresult path hpath
      exact .txtPath hfixes hanswer hread hroot

omit [UrlCrate] [SerdeCrate] [DigestCrate] [IoHttpCrate] in
theorem DavReport.record {report : DiscoveryWebdavSrvReport} (h : DavReport heard resolver domain report)
    {secureOnly : Bool} {found : Bool × DiscoverySrvService}
    (hfound : DiscoveryDavResolve.record secureOnly (DiscoveryDavResolve.serviceRecords service report).1
      (DiscoveryDavResolve.serviceRecords service report).2 = some found) :
    ∃ srv, FirstSrv heard resolver (service.srvQname found.1 domain) srv ∧ found.2 = intoService srv := by
  have hslots : FromFirst heard resolver (service.srvQname true domain)
        (DiscoveryDavResolve.serviceRecords service report).1 ∧
      FromFirst heard resolver (service.srvQname false domain)
        (DiscoveryDavResolve.serviceRecords service report).2 := by
    cases service with
    | caldav => exact ⟨h.caldavs, h.caldav⟩
    | carddav => exact ⟨h.carddavs, h.carddav⟩
  unfold DiscoveryDavResolve.record at hfound
  split at hfound
  · rename_i secure plain hsecure
    obtain rfl := Option.some.inj hfound
    exact hslots.1 _ hsecure
  · rename_i plain hsecure hplain
    split at hfound
    · obtain rfl := Option.some.inj hfound
      exact hslots.2 _ hplain
    · cases hfound
  · cases hfound

omit [SerdeCrate] [DigestCrate] in
theorem davResolve_contacts (secureOnly : Bool) :
    (DiscoveryDavResolve.program domain service resolver secureOnly).Always
      (fun q => DavContact heard resolver (Text.trimMatches domain '.') service q.target) heard
      fun _ => True := by
  refine (webdavSrv_heard fun _ _ _ => DavContact.resolver).bind fun result hresult => ?_
  cases result with
  | error err =>
    apply tryRecord_contacts
    intro found hfound
    cases hfound
  | ok report =>
    have hreport := hresult report rfl
    rw [Text.trimMatches_trimMatches] at hreport
    apply tryRecord_contacts
    exact fun found hfound => hreport.record hfound

omit [DigestCrate] in
theorem jmapTryOrigin_contacts (srv : Option Srv) (hsrv : ∀ found, srv = some found →
      FirstSrv heard resolver (DiscoveryJmapResolve.srvQname domain) found) :
    (DiscoveryJmapResolve.tryOrigin domain (DiscoveryJmapResolve.best srv.toList)).Always
      (fun q => JmapContact heard resolver domain q.target) heard fun _ => True := by
  have hstay : WalksStay (fun q => JmapContact heard resolver domain q.target) heard
      (JmapContact heard resolver domain) := walksStay_redirects fun _ => .redirected
  unfold DiscoveryJmapResolve.tryOrigin
  cases horigin : DiscoveryJmapResolve.origin domain (DiscoveryJmapResolve.best srv.toList) with
  | error err => trivial
  | ok origin =>
    refine (DiscoveryJmapWellKnown.always hstay (.wellKnown hsrv horigin)).bind fun result _ => ?_
    rcases result with err | _ | session <;> trivial

omit [DigestCrate] in
theorem jmapResolve_contacts :
    (DiscoveryJmapResolve.program domain resolver).Always
      (fun q => JmapContact heard resolver (Text.trimMatches domain '.') q.target) heard fun _ => True := by
  refine (DnsLookup.always .srv readSrv fun _ _ _ => JmapContact.resolver).bind fun result hresult => ?_
  cases result with
  | error err =>
    apply jmapTryOrigin_contacts none
    intro found hfound
    cases hfound
  | ok records =>
    obtain ⟨answer, hheard, hread⟩ := hresult records rfl
    -- Only the first of the sorted records counts.
    have hbest : DiscoveryJmapResolve.best records =
        DiscoveryJmapResolve.best records.head?.toList := by
      cases records <;> rfl
    rw [DiscoveryJmapResolve.afterSrv, hbest]
    apply jmapTryOrigin_contacts records.head?
    exact fun srv hsrv => ⟨answer, records, hheard, hread, hsrv⟩

end

namespace Job

/-- The servers a job may be in touch with, once it has heard some answers. -/
def Contacts (client : DiscoveryComposeClientStd) (heard : Hearing) (job : Job) (url : Url) : Prop :=
  match job with
  | check _ | mx _ | mailconf _ | cname _ | srv _ => url = client.dns
  | pacc domain => url = client.dns ∨ DiscoveryPacc.url domain = .ok url
  | isp document | oauthServer document | oauthResource document => url = document
  | dav domain service => DavContact heard client.dns (Text.trimMatches domain '.') service url
  | jmap domain => JmapContact heard client.dns (Text.trimMatches domain '.') url
  | wellKnown origin service => RedirectsTo heard url ∨ ∃ request,
    IoHttpCrate.prepareRequest (UrlCrate.asStr origin) service.serviceName = .ok request ∧ url = request.url
  | auth target => RedirectsTo heard url ∨ url = target

theorem always_contacts (client : DiscoveryComposeClientStd) (heard : Hearing) (job : Job) :
    (job.program client).Always (fun q => job.Contacts client heard q.target) heard fun _ => True := by
  have hdns : ∀ qtype, AsksDns (fun q : Exchange => q.target = client.dns) qtype client.dns :=
    fun _ _ _ _ => rfl
  cases job with
  | check domain => exact DiscoveryDnsProbe.always (hdns .soa)
  | mx domain => exact (DnsLookup.always .mx readMx (hdns .mx)).mono fun _ _ => trivial
  | pacc domain =>
    simp only [program]
    cases hurl : DiscoveryPacc.url domain with
    | error err => trivial
    | ok url =>
      have hget : (DiscoveryHttpGet.program url).Always (fun q => q.target = url) heard fun _ => True :=
        HttpFetch.always_target DiscoveryHttpGet.finish (fun _ => rfl) url
      have htxt : (DiscoveryDnsTxt.program (DiscoveryPacc.txtQname domain) client.dns).Always
          (fun q => q.target = client.dns) heard fun _ => True :=
        (DnsLookup.always .txt readTxt (hdns .txt)).mono fun _ _ => trivial
      refine (hget.weaken fun q hq => Or.inr (hurl.trans (congrArg Except.ok hq.symm))).bind
        fun fetched _ => ?_
      cases fetched with
      | error err => trivial
      | ok body => exact (htxt.weaken fun _ => Or.inl).bind fun _ _ => trivial
  | isp url =>
    exact (HttpFetch.always_target DiscoveryHttpGet.finish (fun _ => rfl) url).bind
      fun _ _ => trivial
  | mailconf domain => exact (DnsLookup.always .txt readTxt (hdns .txt)).bind fun _ _ => trivial
  | cname host => exact (DnsLookup.always .a readCname (hdns .a)).mono fun _ _ => trivial
  | srv domain => exact SrvSeries.always _ (hdns .srv) _
  | dav domain service => exact davResolve_contacts client.secureOnly
  | jmap domain => exact jmapResolve_contacts
  | wellKnown origin service =>
    have hstay : WalksStay (fun q => (wellKnown origin service).Contacts client heard q.target) heard
        ((wellKnown origin service).Contacts client heard) := walksStay_redirects fun _ => Or.inl
    exact (DiscoveryWellKnown.always hstay fun request hrequest => .inr ⟨request, hrequest, rfl⟩).mono
      fun _ _ => trivial
  | auth url =>
    have hstay : WalksStay (fun q => (auth url).Contacts client heard q.target) heard
        ((auth url).Contacts client heard) := walksStay_redirects fun _ => Or.inl
    exact (DiscoveryHttpWalk.always .schemes hstay (.inr rfl)).bind fun _ _ => trivial
  | oauthServer url => exact HttpFetch.always_target _ (fun _ => rfl) url
  | oauthResource url => exact HttpFetch.always_target _ (fun _ => rfl) url

/-- Whatever a job is handed, it waits only for a server it has just written to, with nothing for another
server in between. It is in touch with the resolver and the servers it is for, and with no other that was
not named by one of the answers to the questions it has asked so far. -/
theorem requests_first (h : RequestsFirst) (client : DiscoveryComposeClientStd) (job : Job)
    (args : List (Option Bytes)) :
    Opened DiscoveryYield.url DiscoveryYield.isWrite ((job.machine client).yields args) ∧
      ∃ turns rest, Reaches exchanges (job.program client) turns rest ∧ inputs turns <+: args ∧
        ∀ y ∈ (job.machine client).yields args, job.Contacts client (given turns) y.url := by
  obtain ⟨turns, rest, hreaches, hinputs, hasks⟩ := (job.machine_performs client).yields_turns args
  obtain ⟨parts, hparts, heq⟩ := hasks (job.always_contacts client (given turns))
  rw [heq]
  constructor
  · apply Opened.parts
    intro part _
    exact Exchange.yields_opened h part.1 part.2
  · refine ⟨turns, rest, hreaches, hinputs, ?_⟩
    intro y hy
    obtain ⟨part, hpart, hmem⟩ := List.mem_flatMap.mp hy
    have htarget := part.1.yields_target part.1.targets_start (none :: part.2) y hmem
    rw [htarget]
    exact hparts part hpart

end Job
end

theorem plainHttp_requestsFirst : @RequestsFirst plainHttp :=
  @RequestsFirst.mk plainHttp (fun _ _ h => by cases h) (fun _ _ h => by cases h)

theorem Job.requests_first_auth :
    letI := plainUrl
    letI := plainDns
    letI := plainHttp
    letI := plainSerde
    letI := DiscoveryPacc.vouchedCrates
    let client := DiscoveryComposeClientStd.new exampleResolver
    let moved := Text.bytes "HTTP/1.1 302 Found\r\nLocation: /dav/\r\n\r\n"
    let args := [none, some moved, none]
    let ys := ((Job.auth exampleOrigin).machine client).yields args
    ys.map DiscoveryYield.isWrite = [true, false, true, false] ∧
      Opened DiscoveryYield.url DiscoveryYield.isWrite ys ∧
        ∃ turns rest, Reaches exchanges ((Job.auth exampleOrigin).program client) turns rest ∧
          inputs turns <+: args ∧
            ∀ y ∈ ys, (Job.auth exampleOrigin).Contacts client (given turns) y.url := by
  let _ := plainUrl
  let _ := plainDns
  let _ := plainHttp
  let _ := plainSerde
  let _ := DiscoveryPacc.vouchedCrates
  constructor
  · decide +kernel
  · exact Job.requests_first plainHttp_requestsFirst _ _ _

end PimDiscovery
