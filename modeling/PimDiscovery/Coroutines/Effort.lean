import PimDiscovery.Interaction.Runs
import PimDiscovery.Rfc6764.Resolve
import PimDiscovery.Rfc8620.Resolve

/-! How many exchanges a resolve makes, whatever the servers answer. -/

namespace PimDiscovery
open Interaction

/-- What the exchanges of a run are counted by. -/
inductive Effort where
  | srvLookups | txtLookups | walks | requests | others
  deriving DecidableEq, Repr

/-- A walk is counted at its first request. -/
def Effort.counts : Effort → Exchange → Bool
  | srvLookups, .dns .srv _ _ => true
  | txtLookups, .dns .txt _ _ => true
  | walks, .hop _ 0 _ => true
  | requests, .hop _ _ _ => true
  | others, .dns qtype _ _ => qtype != .srv && qtype != .txt
  | others, .send _ => true
  | _, _ => false

structure Budget where
  srvLookups : Nat := 0
  txtLookups : Nat := 0
  walks : Nat := 0
  requests : Nat := 0
  others : Nat := 0

namespace Budget

def limit (self : Budget) : Effort → Nat
  | .srvLookups => self.srvLookups
  | .txtLookups => self.txtLookups
  | .walks => self.walks
  | .requests => self.requests
  | .others => self.others

instance : Add Budget where
  add a b :=
    { srvLookups := a.srvLookups + b.srvLookups, txtLookups := a.txtLookups + b.txtLookups
      walks := a.walks + b.walks, requests := a.requests + b.requests
      others := a.others + b.others }

theorem limit_add (a b : Budget) (effort : Effort) :
    (a + b).limit effort = a.limit effort + b.limit effort := by
  cases effort <;> rfl

def exchange (q : Exchange) : Budget where
  srvLookups := if Effort.srvLookups.counts q then 1 else 0
  txtLookups := if Effort.txtLookups.counts q then 1 else 0
  walks := if Effort.walks.counts q then 1 else 0
  requests := if Effort.requests.counts q then 1 else 0
  others := if Effort.others.counts q then 1 else 0

theorem limit_exchange (q : Exchange) (effort : Effort) :
    (exchange q).limit effort = if effort.counts q then 1 else 0 := by
  cases effort <;> rfl

def walk : Budget := { walks := 1, requests := maxHops + 1 }

end Budget

def Protocol.Within {α : Type} (program : Protocol α) (budget : Budget) : Prop :=
  ∀ effort : Effort, program.AtMost effort.counts (budget.limit effort)

namespace Protocol.Within
variable {α β : Type} {budget budget' : Budget}

theorem pure (a : α) (budget : Budget) : Protocol.Within (.pure a) budget := fun _ => trivial

theorem mono {program : Protocol α} (h : program.Within budget)
    (hle : ∀ effort, budget.limit effort ≤ budget'.limit effort) : program.Within budget' :=
  fun effort => (h effort).mono (hle effort)

theorem bind {program : Protocol α} {f : α → Protocol β} (h : program.Within budget)
    (hf : ∀ a, (f a).Within budget') : Protocol.Within (program >>= f) (budget + budget') := by
  intro effort
  rw [Budget.limit_add]
  exact (h effort).bind fun a => hf a effort

theorem ask {q : Exchange} {next : q.Answer → Protocol α} (budget : Budget)
    (h : ∀ a, (next a).Within budget) : Protocol.Within (.ask q next) (.exchange q + budget) := by
  intro effort
  rw [Budget.limit_add, Budget.limit_exchange]
  exact Prog.AtMost.ask fun a => h a effort

theorem bind_pure {program : Protocol α} {f : α → β} (h : program.Within budget) :
    Protocol.Within (program >>= fun a => .pure (f a)) budget :=
  (h.bind fun a => pure (f a) {}).mono fun effort => by cases effort <;> exact le_rfl

end Protocol.Within

namespace DiscoveryHttpWalk
variable (role : WalkRole)

/-- By recursion on the redirects that may still be followed. -/
theorem programFrom_within {hops left : Nat} (h : hops + left = maxHops) (request : HttpRequest) :
    (programFrom role hops request).Within
      (.exchange (.hop role hops request) + { requests := left }) := by
  induction left generalizing hops request with
  | zero =>
    rw [programFrom]
    refine Protocol.Within.ask { requests := 0 } fun answer => ?_
    rcases answer with err | output
    · exact .pure _ _
    · simp only [show hops ≥ maxHops by omega, if_true]
      split <;> exact .pure _ _
  | succ left ih =>
    rw [programFrom]
    refine Protocol.Within.ask { requests := left + 1 } fun answer => ?_
    rcases answer with err | output
    · exact .pure _ _
    · simp only [show ¬ hops ≥ maxHops by omega, if_false]
      split
      · refine (ih (by omega) _).mono fun effort => ?_
        rw [Budget.limit_add, Budget.limit_exchange]
        cases effort <;> simp [Budget.limit, Effort.counts, Nat.add_comm]
      · exact .pure _ _

theorem program_within (request : HttpRequest) : (program role request).Within Budget.walk := by
  refine (programFrom_within role (Nat.zero_add maxHops) request).mono fun effort => ?_
  rw [Budget.limit_add, Budget.limit_exchange]
  cases effort <;> simp [Budget.limit, Effort.counts, Budget.walk, Nat.add_comm]

end DiscoveryHttpWalk

section
variable [DomainCrate]

theorem DnsLookup.program_within {ρ : Type} (qtype : QType) (read : String → List MessageItem → ρ)
    (domain : String) (resolver : Url) :
    (program qtype read domain resolver).Within (.exchange (.dns qtype domain resolver)) := by
  unfold program
  cases queryMessage qtype domain with
  | error err => exact .pure _ _
  | ok message =>
    refine (Protocol.Within.ask {} fun answer => .pure _ _).mono fun effort => ?_
    cases effort <;> exact le_rfl

theorem SrvSeries.program_within {ρ : Type} (domain : String) (resolver : Url)
    (left : List (SrvLookup ρ)) (report : ρ) :
    (program domain resolver left report).Within { srvLookups := left.length } := by
  induction left generalizing report with
  | nil => exact .pure _ _
  | cons lookup left ih =>
    have hlookup := DnsLookup.program_within .srv readSrv (lookup.qname domain) resolver
    have hall : (program domain resolver (lookup :: left) report).Within
        (.exchange (.dns .srv (lookup.qname domain) resolver) + { srvLookups := left.length }) := by
      refine hlookup.bind fun result => ?_
      cases result with
      | error err => exact .pure _ _
      | ok records => exact ih _
    refine hall.mono fun effort => ?_
    rw [Budget.limit_add, Budget.limit_exchange]
    cases effort <;> simp [Budget.limit, Effort.counts, Nat.add_comm]

variable [UrlCrate] [IoHttpCrate]

namespace DiscoveryDavResolve

omit [UrlCrate] [DomainCrate] in
theorem context_within (role : WalkRole) (url : Url) :
    (DiscoveryDavContext.program role url).Within Budget.walk :=
  (DiscoveryHttpWalk.program_within role (propfind url)).bind_pure

omit [DomainCrate] in
theorem wellKnown_within (origin : Url) (service : DiscoveryDavService) :
    (DiscoveryWellKnown.program origin service).Within Budget.walk := by
  unfold DiscoveryWellKnown.program
  split
  · exact (DiscoveryHttpWalk.program_within .wellKnown _).bind_pure
  · exact .pure _ _

omit [UrlCrate] [DomainCrate] in
theorem tryOrigin_within (origin : Url) : (tryOrigin origin).Within (Budget.walk + {}) := by
  refine (context_within .origin origin).bind fun result => ?_
  rcases result with err | _ | root <;> exact .pure _ _

omit [DomainCrate] in
theorem tryWellKnown_within (service : DiscoveryDavService) (origin : Url) :
    (tryWellKnown service origin).Within (Budget.walk + (Budget.walk + {})) := by
  refine (wellKnown_within origin service).bind fun result => ?_
  rcases result with err | _ | root
  · exact .pure _ _
  · exact tryOrigin_within origin
  · exact .pure _ _

/-- The TXT path, the `.well-known` and the origin. -/
def candidates : Budget := Budget.walk + (Budget.walk + (Budget.walk + {}))

omit [DomainCrate] in
theorem tryWellKnown_candidates (service : DiscoveryDavService) (origin : Url) :
    (tryWellKnown service origin).Within candidates := by
  refine (tryWellKnown_within service origin).mono fun effort => ?_
  rw [candidates, Budget.limit_add Budget.walk (Budget.walk + (Budget.walk + {}))]
  exact Nat.le_add_left _ _

omit [DomainCrate] in
theorem afterTxt_within (service : DiscoveryDavService) (origin : Url) (result : WebdavTxtResult) :
    (afterTxt service origin result).Within candidates := by
  rcases result with err | _ | path
  · exact .pure _ _
  · exact tryWellKnown_candidates service origin
  · simp only [afterTxt]
    cases UrlCrate.join origin path with
    | error err => exact .pure _ _
    | ok root =>
      refine (context_within .txtPath root).bind fun result => ?_
      rcases result with err | _ | root
      · exact .pure _ _
      · exact tryWellKnown_within service origin
      · exact .pure _ _

theorem tryRecord_within (service : DiscoveryDavService) (domain : String) (resolver : Url)
    (record : Option (Bool × DiscoverySrvService)) :
    (tryRecord service domain resolver record).Within ({ txtLookups := 1 } + candidates) := by
  unfold tryRecord
  split
  · exact .pure _ _
  · split
    · exact ((DnsLookup.program_within .txt readTxt _ resolver).bind_pure
        (f := DiscoveryWebdavTxt.finish)).bind fun result => afterTxt_within service _ result
    · refine (tryWellKnown_candidates service _).mono fun effort => ?_
      rw [Budget.limit_add]
      exact Nat.le_add_left _ _

theorem program_within (domain : String) (service : DiscoveryDavService) (resolver : Url)
    (secureOnly : Bool) :
    (program domain service resolver secureOnly).Within
      { srvLookups := 4, txtLookups := 1, walks := 3, requests := 18 } := by
  have hsrv : (DiscoveryWebdavSrv.program (Text.trimMatches domain '.') resolver).Within
      { srvLookups := 4 } := SrvSeries.program_within _ _ _ _
  have hall : (program domain service resolver secureOnly).Within
      ({ srvLookups := 4 } + ({ txtLookups := 1 } + candidates)) := by
    refine hsrv.bind fun result => ?_
    cases result with
    | error err => exact tryRecord_within _ _ resolver _
    | ok report => exact tryRecord_within _ _ _ _
  refine hall.mono fun effort => ?_
  cases effort <;> decide

end DiscoveryDavResolve

namespace DiscoveryJmapResolve
variable [SerdeCrate]

theorem program_within (domain : String) (resolver : Url) :
    (program domain resolver).Within { srvLookups := 1, walks := 1, requests := 6 } := by
  have horigin : ∀ srv, (tryOrigin (Text.trimMatches domain '.') srv).Within Budget.walk := by
    intro srv
    unfold tryOrigin
    split
    · exact .pure _ _
    · rename_i origin _
      have hprobe : (DiscoveryJmapWellKnown.program origin).Within Budget.walk :=
        (DiscoveryHttpWalk.program_within .session _).bind_pure
      have hall : (DiscoveryJmapWellKnown.program origin >>= afterProbe origin).Within
          (Budget.walk + {}) := by
        refine hprobe.bind fun result => ?_
        rcases result with err | _ | session <;> exact .pure _ _
      exact hall
  have hall : (program domain resolver).Within ({ srvLookups := 1 } + Budget.walk) := by
    refine (DnsLookup.program_within .srv readSrv _ resolver).bind fun result => ?_
    cases result with
    | error err => exact horigin none
    | ok records => exact horigin (best records)
  exact hall

end DiscoveryJmapResolve

/-- Over inputs that complete every exchange it comes to, a machine that runs `program` from `s`
completes, within this budget. -/
def CompletesWithin {σ ρ : Type} (resume : σ → Option Bytes → Step DiscoveryYield σ ρ) (s : σ)
    (program : Protocol ρ) (budget : Budget) : Prop :=
  ∀ stream, Completing exchanges program stream → ∃ turns result,
    inputs turns = stream.take (inputs turns).length ∧ Runs exchanges resume s turns result ∧
      ∀ effort : Effort, countTurns effort.counts turns ≤ budget.limit effort

omit [UrlCrate] in
theorem Protocol.Within.completes {σ ρ : Type} {resume : σ → Option Bytes → Step DiscoveryYield σ ρ}
    {s : σ} {program : Protocol ρ} {budget : Budget} {toProc : σ → ProtocolRun ρ}
    (h : program.Within budget) (hrefines : Refines resume toProc)
    (hs : (toProc s).resume none = drive exchanges program) :
    CompletesWithin resume s program budget := by
  intro stream hstream
  obtain ⟨turns, result, hreaches, hinputs⟩ := hstream.reaches
  exact ⟨turns, result, hinputs, hrefines.runs hs hreaches, fun effort =>
    hreaches.countTurns_le (h effort)⟩

/-- Where each exchange completes, a walk makes at most six requests, a DAV resolve at most four SRV
lookups, one TXT lookup and three walks of eighteen requests in all, and a JMAP resolve at most one
SRV lookup and one walk; none makes another exchange. -/
theorem resolves_complete_within [SerdeCrate] :
    (∀ role request, CompletesWithin DiscoveryHttpWalk.resume (.new request)
      (DiscoveryHttpWalk.program role request) { walks := 1, requests := 6 }) ∧
    (∀ domain service resolver secureOnly, CompletesWithin DiscoveryDavResolve.resume
      ((DiscoveryDavResolve.new domain service resolver).withSecureOnly secureOnly)
      (DiscoveryDavResolve.program domain service resolver secureOnly)
      { srvLookups := 4, txtLookups := 1, walks := 3, requests := 18 }) ∧
    ∀ domain resolver, CompletesWithin DiscoveryJmapResolve.resume (.new domain resolver)
      (DiscoveryJmapResolve.program domain resolver)
      { srvLookups := 1, walks := 1, requests := 6 } := by
  refine ⟨fun role request => ?_, fun domain service resolver secureOnly => ?_,
    fun domain resolver => ?_⟩
  · exact (DiscoveryHttpWalk.program_within role request).completes (DiscoveryHttpWalk.refines role)
      (DiscoveryHttpWalk.toProc_new role request)
  · exact (DiscoveryDavResolve.program_within domain service resolver secureOnly).completes
      DiscoveryDavResolve.refines
      (DiscoveryDavResolve.toProc_new domain service resolver secureOnly none)
  · exact (DiscoveryJmapResolve.program_within domain resolver).completes
      DiscoveryJmapResolve.refines (DiscoveryJmapResolve.toProc_new domain resolver none)

end

/-- Against servers that close every connection, each exchange ends with its first read. -/
theorem exchange_closed (q : Exchange) :
    letI := plainDns
    letI := plainHttp
    ∃ a, outcome (exchanges.resume q) (exchanges.start q) [none, some []] = some a := by
  let _ := plainDns
  let _ := plainHttp
  cases q with
  | dns qtype name resolver =>
    change ∃ a, outcome DiscoveryDnsExchange.resume (DiscoveryDnsExchange.new _ resolver)
      [none, some []] = some a
    unfold DiscoveryDnsExchange.new
    split <;> exact ⟨_, rfl⟩
  | hop role hops request => exact ⟨_, rfl⟩
  | send request => exact ⟨_, rfl⟩

theorem closed_servers_completing {α : Type} (program : Protocol α) :
    letI := plainDns
    letI := plainHttp
    Completing exchanges program (Stream'.const (some [])) := by
  intro turns q next _ _
  obtain ⟨a, ha⟩ := exchange_closed q
  rw [Stream'.drop_const]
  exact ⟨1, a, ha⟩

theorem dav_resolve_completes_on_closed_servers :
    letI := plainUrl
    letI := plainDns
    letI := plainHttp
    ∃ turns result, Runs exchanges DiscoveryDavResolve.resume
      ((DiscoveryDavResolve.new "example.org" .caldav exampleResolver).withSecureOnly true)
      turns result ∧ countTurns Effort.requests.counts turns ≤ 18 := by
  let _ := plainUrl
  let _ := plainDns
  let _ := plainHttp
  let _ := plainSerde
  obtain ⟨turns, result, -, hruns, hcount⟩ := resolves_complete_within.2.1 "example.org" .caldav
    exampleResolver true (Stream'.const (some [])) (closed_servers_completing _)
  exact ⟨turns, result, hruns, hcount .requests⟩

end PimDiscovery
