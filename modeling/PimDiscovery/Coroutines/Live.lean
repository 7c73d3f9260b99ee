import PimDiscovery.Interaction.Runs
import PimDiscovery.Autoconfig.Lookups
import PimDiscovery.Pacc.Vouched
import PimDiscovery.Rfc6186.Discover
import PimDiscovery.Rfc6764.Resolve
import PimDiscovery.Rfc8620.Resolve

/-! No coroutine panics before it completes: a state is live when neither it nor a coroutine nested
in it is at its end, and every resume that yields leaves a live state behind. -/

namespace PimDiscovery
open Interaction

section
variable [IoHttpCrate]

namespace DiscoveryDnsExchange

def Live (self : DiscoveryDnsExchange) : Prop :=
  match self.state with
  | .tcpWrite _ | .tcpRead _ | .http _ => True
  | .done => False

theorem live_new (message : Bytes) (resolver : Url) : (new message resolver).Live := by
  unfold new
  split <;> trivial

theorem resume_keeps {self : DiscoveryDnsExchange} (arg : Option Bytes) (h : self.Live) :
    (self.resume arg).Keeps Live := by
  unfold resume
  cases hs : self.state with
  | tcpWrite bytes => trivial
  | tcpRead response =>
    simp only
    split
    · trivial
    · split <;> trivial
  | http send =>
    simp only
    split
    · trivial
    · trivial
    · trivial
    · split <;> trivial
    · trivial
  | done =>
    rw [Live, hs] at h
    exact h.elim

end DiscoveryDnsExchange

namespace DiscoveryHttpWalk

/-- A walk has no state for its end: it is over when its caller drops it. -/
theorem resume_keeps (self : DiscoveryHttpWalk) (arg : Option Bytes) :
    (self.resume arg).Keeps fun _ => True := by
  induction hn : maxHops - self.hops using Nat.strongRecOn generalizing self arg with
  | ind n ih =>
    unfold resume
    obtain ⟨state, send⟩ := IoHttpCrate.resumeWellKnown self.send arg
    rcases state with (_ | _) | (_ | output)
    · trivial
    · trivial
    · trivial
    · simp only
      cases output.redirectUrl with
      | none => trivial
      | some next =>
        simp only
        split
        · trivial
        · exact ih (maxHops - (self.hops + 1)) (by omega) _ _ rfl

end DiscoveryHttpWalk

namespace DiscoveryHttpGet

theorem resume_keeps (self : DiscoveryHttpGet) (arg : Option Bytes) :
    (resume self arg).Keeps fun _ => True := by
  unfold resume HttpFetch.resume
  split <;> trivial

end DiscoveryHttpGet

variable [DomainCrate]

namespace DnsLookup

def Live (self : DnsLookup) : Prop :=
  match self.state with
  | .buildQuery => True
  | .exchange exchange => exchange.Live
  | .done => False

omit [DomainCrate] in
theorem live_new (domain : String) (resolver : Url) : (new domain resolver).Live := trivial

section
variable {ρ : Type} (qtype : QType) (read : String → List MessageItem → ρ)

theorem resumeExchange_keeps (self : DnsLookup) {exchange : DiscoveryDnsExchange}
    (arg : Option Bytes) (h : exchange.Live) :
    (self.resumeExchange read exchange arg).Keeps Live := by
  have hkeeps := DiscoveryDnsExchange.resume_keeps arg h
  unfold resumeExchange
  generalize exchange.resume arg = step at hkeeps ⊢
  cases step with
  | yielded y exchange => exact hkeeps
  | complete answer => trivial
  | panicked => exact hkeeps

theorem resume_keeps {self : DnsLookup} (arg : Option Bytes) (h : self.Live) :
    (self.resume qtype read arg).Keeps Live := by
  unfold resume
  cases hs : self.state with
  | buildQuery =>
    simp only
    split
    · trivial
    · exact resumeExchange_keeps read self none (DiscoveryDnsExchange.live_new _ _)
  | exchange exchange =>
    rw [Live, hs] at h
    exact resumeExchange_keeps read self arg h
  | done =>
    rw [Live, hs] at h
    exact h.elim

end
end DnsLookup

namespace SrvSeries
variable {ρ : Type}

def Live (self : SrvSeries ρ) : Prop :=
  match self.state with
  | some (_, srv) => srv.Live
  | none => False

omit [DomainCrate] in
theorem live_new (first : SrvLookup ρ) (left : List (SrvLookup ρ)) (domain : String)
    (resolver : Url) (report : ρ) : (new first left domain resolver report).Live := trivial

/-- By recursion on the lookups left, each of which starts live. -/
theorem resume_keeps {self : SrvSeries ρ} (arg : Option Bytes) (h : self.Live) :
    (self.resume arg).Keeps Live := by
  induction hn : self.left.length using Nat.strongRecOn generalizing self arg with
  | ind n ih =>
    unfold resume
    cases hs : self.state with
    | none =>
      rw [Live, hs] at h
      exact h.elim
    | some current =>
      obtain ⟨lookup, srv⟩ := current
      rw [Live, hs] at h
      have hkeeps := DnsLookup.resume_keeps .srv readSrv arg h
      simp only [DiscoveryDnsSrv.resume]
      generalize DnsLookup.resume .srv readSrv srv arg = step at hkeeps ⊢
      cases step with
      | yielded y srv => exact hkeeps
      | panicked => exact hkeeps
      | complete result =>
        cases result with
        | error err => trivial
        | ok records =>
          simp only
          cases hleft : self.left with
          | nil => trivial
          | cons next left => exact ih left.length (by simp [← hn, hleft]) _ (live_new ..) rfl

end SrvSeries

namespace DiscoveryWellKnown

def Live : DiscoveryWellKnown → Prop
  | walk _ => True
  | failed err => err.isSome

omit [DomainCrate] in
theorem resume_keeps {self : DiscoveryWellKnown} (arg : Option Bytes) (h : self.Live) :
    (self.resume arg).Keeps Live := by
  match self with
  | walk probe =>
    exact ((DiscoveryHttpWalk.resume_keeps probe arg).mapState fun _ _ => trivial).mapResult finish
  | failed (some err) => trivial
  | failed none => exact absurd h nofun

variable [UrlCrate]

omit [DomainCrate] in
theorem live_new (origin : Url) (service : DiscoveryDavService) : (new origin service).Live := by
  unfold new
  split <;> trivial

end DiscoveryWellKnown

omit [DomainCrate] in
theorem DiscoveryDavContext.resume_keeps (self : DiscoveryDavContext) (arg : Option Bytes) :
    (resume self arg).Keeps fun _ => True :=
  (DiscoveryHttpWalk.resume_keeps self arg).mapResult finish

namespace DiscoveryDavResolve
variable [UrlCrate]

def Live (self : DiscoveryDavResolve) : Prop :=
  match self.state with
  | .srv srv => SrvSeries.Live srv
  | .txt txt _ => DnsLookup.Live txt
  | .wellKnown probe _ => probe.Live
  | .context _ _ _ => True
  | .done => False

omit [UrlCrate] [DomainCrate] in
theorem resumeOrigin_keeps (self : DiscoveryDavResolve) (check : DiscoveryDavContext) (origin : Url)
    (arg : Option Bytes) : (self.resumeOrigin check origin arg).Keeps Live := by
  have hkeeps := DiscoveryDavContext.resume_keeps check arg
  unfold resumeOrigin
  generalize DiscoveryDavContext.resume check arg = step at hkeeps ⊢
  rcases step with _ | (_ | (_ | _)) | _
  · trivial
  · trivial
  · trivial
  · trivial
  · exact hkeeps

omit [UrlCrate] [DomainCrate] in
theorem resumeWellKnown_keeps (self : DiscoveryDavResolve) {probe : DiscoveryWellKnown}
    (origin : Url) (arg : Option Bytes) (h : probe.Live) :
    (self.resumeWellKnown probe origin arg).Keeps Live := by
  have hkeeps := DiscoveryWellKnown.resume_keeps arg h
  unfold resumeWellKnown
  generalize probe.resume arg = step at hkeeps ⊢
  rcases step with _ | (_ | (_ | _)) | _
  · exact hkeeps
  · trivial
  · exact resumeOrigin_keeps self _ origin none
  · trivial
  · exact hkeeps

omit [DomainCrate] in
theorem resumeTxtPath_keeps (self : DiscoveryDavResolve) (check : DiscoveryDavContext)
    (origin : Url) (arg : Option Bytes) : (self.resumeTxtPath check origin arg).Keeps Live := by
  have hkeeps := DiscoveryDavContext.resume_keeps check arg
  unfold resumeTxtPath
  generalize DiscoveryDavContext.resume check arg = step at hkeeps ⊢
  rcases step with _ | (_ | (_ | _)) | _
  · trivial
  · trivial
  · exact resumeWellKnown_keeps self origin none (DiscoveryWellKnown.live_new origin self.service)
  · trivial
  · exact hkeeps

theorem resumeTxt_keeps (self : DiscoveryDavResolve) {txt : DiscoveryWebdavTxt} (origin : Url)
    (arg : Option Bytes) (h : DnsLookup.Live txt) : (self.resumeTxt txt origin arg).Keeps Live := by
  have hkeeps := (DnsLookup.resume_keeps .txt readTxt arg h).mapResult DiscoveryWebdavTxt.finish
  unfold resumeTxt DiscoveryWebdavTxt.resume DiscoveryDnsTxt.resume
  generalize (DnsLookup.resume .txt readTxt txt arg).mapResult _ = step at hkeeps ⊢
  rcases step with _ | (_ | (_ | path)) | _
  · exact hkeeps
  · trivial
  · exact resumeWellKnown_keeps self origin none (DiscoveryWellKnown.live_new origin self.service)
  · simp only
    cases UrlCrate.join origin path with
    | error err => trivial
    | ok root => exact resumeTxtPath_keeps self _ origin none
  · exact hkeeps

theorem resumeSrv_keeps (self : DiscoveryDavResolve) {srv : DiscoveryWebdavSrv}
    (arg : Option Bytes) (h : SrvSeries.Live srv) : (self.resumeSrv srv arg).Keeps Live := by
  have hkeeps := SrvSeries.resume_keeps arg h
  have hprobe : ∀ origin, (self.resumeWellKnown (.new origin self.service) origin none).Keeps Live :=
    fun origin => resumeWellKnown_keeps self origin none (DiscoveryWellKnown.live_new ..)
  unfold resumeSrv DiscoveryWebdavSrv.resume
  generalize SrvSeries.resume srv arg = step at hkeeps ⊢
  rcases step with _ | (_ | report) | _
  · exact hkeeps
  · simp only
    cases origin self.domain none with
    | error err => trivial
    | ok origin => exact hprobe origin
  · simp only
    split
    · trivial
    · split
      · exact resumeTxt_keeps self _ none (DnsLookup.live_new ..)
      · exact hprobe _
  · exact hkeeps

theorem resume_keeps {self : DiscoveryDavResolve} (arg : Option Bytes) (h : self.Live) :
    (self.resume arg).Keeps Live := by
  unfold resume
  rw [Live] at h
  rcases hs : self.state with srv | ⟨txt, origin⟩ | ⟨probe, origin⟩ | ⟨check, origin, _ | _⟩ | _
  · rw [hs] at h
    exact resumeSrv_keeps self arg h
  · rw [hs] at h
    exact resumeTxt_keeps self origin arg h
  · rw [hs] at h
    exact resumeWellKnown_keeps self origin arg h
  · exact resumeTxtPath_keeps self check origin arg
  · exact resumeOrigin_keeps self check origin arg
  · rw [hs] at h
    exact h.elim

omit [UrlCrate] [DomainCrate] in
theorem live_new (domain : String) (service : DiscoveryDavService) (resolver : Url)
    (secureOnly : Bool) : ((new domain service resolver).withSecureOnly secureOnly).Live := trivial

end DiscoveryDavResolve

section
variable [UrlCrate] [SerdeCrate]

namespace DiscoveryJmapResolve

def Live (self : DiscoveryJmapResolve) : Prop :=
  match self.state with
  | .srv srv => DnsLookup.Live srv
  | .wellKnown _ _ => True
  | .done => False

omit [UrlCrate] [DomainCrate] in
theorem resumeWellKnown_keeps (self : DiscoveryJmapResolve) (probe : DiscoveryJmapWellKnown)
    (origin : Url) (arg : Option Bytes) : (self.resumeWellKnown probe origin arg).Keeps Live := by
  have hkeeps := (DiscoveryHttpWalk.resume_keeps probe arg).mapResult DiscoveryJmapWellKnown.finish
  unfold resumeWellKnown DiscoveryJmapWellKnown.resume
  generalize (DiscoveryHttpWalk.resume probe arg).mapResult _ = step at hkeeps ⊢
  rcases step with _ | (_ | (_ | _)) | _
  · trivial
  · trivial
  · trivial
  · trivial
  · exact hkeeps

omit [DomainCrate] in
theorem probe_keeps (self : DiscoveryJmapResolve) (srv : Option (String × UInt16)) :
    (self.probe srv).Keeps Live := by
  unfold probe
  split
  · trivial
  · exact resumeWellKnown_keeps self _ _ none

theorem resume_keeps {self : DiscoveryJmapResolve} (arg : Option Bytes) (h : self.Live) :
    (self.resume arg).Keeps Live := by
  unfold resume
  rw [Live] at h
  cases hs : self.state with
  | srv srv =>
    rw [hs] at h
    have hkeeps := DnsLookup.resume_keeps .srv readSrv arg h
    simp only [DiscoveryDnsSrv.resume]
    generalize DnsLookup.resume .srv readSrv srv arg = step at hkeeps ⊢
    rcases step with _ | (_ | records) | _
    · exact hkeeps
    · exact probe_keeps self none
    · exact probe_keeps self (best records)
    · exact hkeeps
  | wellKnown probe origin => exact resumeWellKnown_keeps self probe origin arg
  | done =>
    rw [hs] at h
    exact h.elim

omit [UrlCrate] [DomainCrate] [SerdeCrate] in
theorem live_new (domain : String) (resolver : Url) : (new domain resolver).Live := trivial

end DiscoveryJmapResolve

namespace DiscoveryPacc
variable [DigestCrate]

def Live (self : DiscoveryPacc) : Prop :=
  match self.state with
  | .get | .verify => DnsLookup.Live self.verify
  | .done => False

omit [UrlCrate] in
theorem resumeVerify_keeps {self : DiscoveryPacc} (rawBody : Bytes) (arg : Option Bytes)
    (h : DnsLookup.Live self.verify) : (self.resumeVerify rawBody arg).Keeps Live := by
  have hkeeps := DnsLookup.resume_keeps .txt readTxt arg h
  unfold resumeVerify DiscoveryDnsTxt.resume
  generalize DnsLookup.resume .txt readTxt self.verify arg = step at hkeeps ⊢
  cases step with
  | yielded y verify => exact hkeeps
  | complete result => trivial
  | panicked => exact hkeeps

omit [UrlCrate] in
theorem resume_keeps {self : DiscoveryPacc} (arg : Option Bytes) (h : self.Live) :
    (self.resume arg).Keeps Live := by
  obtain ⟨state, fetch, verify, rawBody, fresh⟩ := self
  cases state with
  | get =>
    have hkeeps := DiscoveryHttpGet.resume_keeps fetch arg
    simp only [resume]
    generalize DiscoveryHttpGet.resume fetch arg = step at hkeeps ⊢
    rcases step with _ | (_ | body) | _
    · exact h
    · trivial
    · exact resumeVerify_keeps body none h
    · exact hkeeps
  | verify => exact resumeVerify_keeps rawBody arg h
  | done => exact h.elim

omit [DomainCrate] [SerdeCrate] [DigestCrate] in
theorem live_new {domain : String} {resolver : Url} {self : DiscoveryPacc}
    (h : new domain resolver = .ok self) : self.Live := by
  unfold new at h
  split at h
  · exact nomatch h
  · obtain rfl := Except.ok.inj h
    trivial

end DiscoveryPacc

/-- However they are resumed, the coroutines are live until they complete. -/
theorem never_panics [DigestCrate] :
    (∀ message resolver, StaysLive DiscoveryDnsExchange.resume DiscoveryDnsExchange.Live
      (.new message resolver)) ∧
    (∀ domain resolver,
      StaysLive DiscoveryDnsTxt.resume DnsLookup.Live (DiscoveryDnsTxt.new domain resolver) ∧
      StaysLive DiscoveryDnsSrv.resume DnsLookup.Live (DiscoveryDnsSrv.new domain resolver) ∧
      StaysLive DiscoveryDnsMx.resume DnsLookup.Live (DiscoveryDnsMx.new domain resolver) ∧
      StaysLive DiscoveryDnsCname.resume DnsLookup.Live (DiscoveryDnsCname.new domain resolver)) ∧
    (∀ domain resolver,
      StaysLive DiscoverySrv.resume SrvSeries.Live (DiscoverySrv.new domain resolver) ∧
      StaysLive DiscoveryWebdavSrv.resume SrvSeries.Live (DiscoveryWebdavSrv.new domain resolver)) ∧
    (∀ origin service, StaysLive DiscoveryWellKnown.resume DiscoveryWellKnown.Live
      (.new origin service)) ∧
    (∀ domain service resolver secureOnly,
      StaysLive DiscoveryDavResolve.resume DiscoveryDavResolve.Live
        ((DiscoveryDavResolve.new domain service resolver).withSecureOnly secureOnly)) ∧
    (∀ domain resolver, StaysLive DiscoveryJmapResolve.resume DiscoveryJmapResolve.Live
      (.new domain resolver)) ∧
    ∀ domain resolver pacc, DiscoveryPacc.new domain resolver = .ok pacc →
      StaysLive DiscoveryPacc.resume DiscoveryPacc.Live pacc := by
  have hlookup : ∀ {ρ : Type} (qtype : QType) (read : String → List MessageItem → ρ) domain resolver,
      StaysLive (DnsLookup.resume qtype read) DnsLookup.Live (.new domain resolver) :=
    fun qtype read domain resolver =>
      staysLive_of_keeps (fun _ => DnsLookup.resume_keeps qtype read) (DnsLookup.live_new ..)
  refine ⟨fun message resolver => ?_, fun domain resolver => ⟨?_, ?_, ?_, ?_⟩,
    fun domain resolver => ⟨?_, ?_⟩, fun origin service => ?_,
    fun domain service resolver secureOnly => ?_, fun domain resolver => ?_,
    fun domain resolver pacc hnew => ?_⟩
  · exact staysLive_of_keeps (fun _ => DiscoveryDnsExchange.resume_keeps)
      (DiscoveryDnsExchange.live_new message resolver)
  · exact hlookup .txt readTxt domain resolver
  · exact hlookup .srv readSrv domain resolver
  · exact hlookup .mx readMx domain resolver
  · exact hlookup .a readCname domain resolver
  · exact staysLive_of_keeps (fun _ => SrvSeries.resume_keeps) (SrvSeries.live_new ..)
  · exact staysLive_of_keeps (fun _ => SrvSeries.resume_keeps) (SrvSeries.live_new ..)
  · exact staysLive_of_keeps (fun _ => DiscoveryWellKnown.resume_keeps)
      (DiscoveryWellKnown.live_new origin service)
  · exact staysLive_of_keeps (fun _ => DiscoveryDavResolve.resume_keeps)
      (DiscoveryDavResolve.live_new domain service resolver secureOnly)
  · exact staysLive_of_keeps (fun _ => DiscoveryJmapResolve.resume_keeps)
      (DiscoveryJmapResolve.live_new domain resolver)
  · exact staysLive_of_keeps (fun _ => DiscoveryPacc.resume_keeps) (DiscoveryPacc.live_new hnew)

end
end

theorem vouched_never_panics :
    letI := plainUrl
    letI := plainDns
    letI := plainHttp
    letI := DiscoveryPacc.vouchedSerde
    letI := DiscoveryPacc.vouchedCrates
    ∃ pacc, DiscoveryPacc.new "example.org" exampleResolver = .ok pacc ∧
      StaysLive DiscoveryPacc.resume DiscoveryPacc.Live pacc := by
  let _ := plainUrl
  let _ := plainDns
  let _ := plainHttp
  let _ := DiscoveryPacc.vouchedSerde
  let _ := DiscoveryPacc.vouchedCrates
  have hurl : DiscoveryPacc.url "example.org" = .ok DiscoveryPacc.vouchedUrl := by decide +kernel
  cases hnew : DiscoveryPacc.new "example.org" exampleResolver with
  | error err => simp [DiscoveryPacc.new, hurl] at hnew
  | ok pacc =>
    obtain ⟨-, -, -, -, -, -, hpacc⟩ := never_panics
    exact ⟨pacc, rfl, hpacc "example.org" exampleResolver pacc hnew⟩

end PimDiscovery
