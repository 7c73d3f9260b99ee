import PimDiscovery.Rfc6764.Resolve
import PimDiscovery.PlainNet

/-! What a DAV resolve answers, on any network: the record that fixes the origin, the candidates it
tries there, and the first of them that leads to a DAV server. -/

namespace PimDiscovery
open Interaction

namespace SrvSeries
variable [DomainCrate] {ρ : Type}

theorem eval_program_cons (o : Network) (domain : String) (resolver : Url) (lookup : SrvLookup ρ)
    (left : List (SrvLookup ρ)) (report : ρ) :
    (∃ err, o.srvAnswers (lookup.qname domain) resolver = .error err ∧
      (program domain resolver (lookup :: left) report).eval o = .error (lookup.label, err)) ∨
    ∃ best, o.BestSrv (lookup.qname domain) resolver best ∧
      (program domain resolver (lookup :: left) report).eval o =
        (program domain resolver left (lookup.set report (best.map intoService))).eval o := by
  simp only [program, Prog.eval_bind, DiscoveryDnsSrv.program, DnsLookup.eval_program,
    Network.lookup_srv]
  cases h : o.srvAnswers (lookup.qname domain) resolver with
  | error err => exact .inl ⟨err, rfl, rfl⟩
  | ok answers => exact .inr ⟨_, ⟨answers, h, Srv.isBest_sorted answers⟩, rfl⟩

end SrvSeries

section
variable [DomainCrate]

def davNames (domain : String) : List String :=
  [DiscoveryDavService.caldav.srvQname false domain, DiscoveryDavService.caldav.srvQname true domain,
    DiscoveryDavService.carddav.srvQname false domain,
    DiscoveryDavService.carddav.srvQname true domain]

def Network.SrvFailed (o : Network) (domain : String) (resolver : Url) : Prop :=
  ∃ name ∈ davNames domain, ∃ err, o.srvAnswers name resolver = .error err

theorem DiscoveryWebdavSrv.eval_program (o : Network) (domain : String) (resolver : Url) :
    (o.SrvFailed (Text.trimMatches domain '.') resolver ∧
      ∃ err, (program domain resolver).eval o = .error err) ∨
    ∃ caldav caldavs carddav carddavs,
      o.BestSrv (DiscoveryDavService.caldav.srvQname false (Text.trimMatches domain '.')) resolver
        caldav ∧
      o.BestSrv (DiscoveryDavService.caldav.srvQname true (Text.trimMatches domain '.')) resolver
        caldavs ∧
      o.BestSrv (DiscoveryDavService.carddav.srvQname false (Text.trimMatches domain '.')) resolver
        carddav ∧
      o.BestSrv (DiscoveryDavService.carddav.srvQname true (Text.trimMatches domain '.')) resolver
        carddavs ∧
      (program domain resolver).eval o = .ok
        { caldav := caldav.map intoService, caldavs := caldavs.map intoService
          carddav := carddav.map intoService, carddavs := carddavs.map intoService } := by
  unfold program
  obtain ⟨err, ha, he⟩ | ⟨b₁, hb₁, he₁⟩ := SrvSeries.eval_program_cons o _ resolver caldav _ emptyReport
  · exact .inl ⟨⟨_, by simp [davNames, SrvLookup.qname, caldav, DiscoveryDavService.srvQname], err, ha⟩,
      _, he⟩
  rw [he₁]
  obtain ⟨err, ha, he⟩ | ⟨b₂, hb₂, he₂⟩ := SrvSeries.eval_program_cons o _ resolver caldavs _ _
  · exact .inl ⟨⟨_, by simp [davNames, SrvLookup.qname, caldavs, DiscoveryDavService.srvQname], err, ha⟩,
      _, he⟩
  rw [he₂]
  obtain ⟨err, ha, he⟩ | ⟨b₃, hb₃, he₃⟩ := SrvSeries.eval_program_cons o _ resolver carddav _ _
  · exact .inl ⟨⟨_, by simp [davNames, SrvLookup.qname, carddav, DiscoveryDavService.srvQname], err, ha⟩,
      _, he⟩
  rw [he₃]
  obtain ⟨err, ha, he⟩ | ⟨b₄, hb₄, he₄⟩ := SrvSeries.eval_program_cons o _ resolver carddavs [] _
  · exact .inl ⟨⟨_, by simp [davNames, SrvLookup.qname, carddavs, DiscoveryDavService.srvQname], err, ha⟩,
      _, he⟩
  exact .inr ⟨b₁, b₂, b₃, b₄, hb₁, hb₂, hb₃, hb₄, he₄⟩

/-- The record that fixes the origin: the best TLS one, else the best plain one unless secure-only,
and none when the SRV step failed. -/
def Network.FixesRecord (o : Network) (service : DiscoveryDavService) (domain : String)
    (resolver : Url) (secureOnly : Bool) : Option (Bool × DiscoverySrvService) → Prop
  | some (true, record) => ¬ o.SrvFailed domain resolver ∧
      ∃ best, o.BestSrv (service.srvQname true domain) resolver (some best) ∧
        record = intoService best
  | some (false, record) => ¬ o.SrvFailed domain resolver ∧ secureOnly = false ∧
      o.BestSrv (service.srvQname true domain) resolver none ∧
      ∃ best, o.BestSrv (service.srvQname false domain) resolver (some best) ∧
        record = intoService best
  | none => o.SrvFailed domain resolver ∨ o.BestSrv (service.srvQname true domain) resolver none ∧
      (secureOnly = true ∨ o.BestSrv (service.srvQname false domain) resolver none)

theorem Network.BestSrv.unfailed {o : Network} {domain : String} {resolver : Url}
    (h : ∀ name ∈ davNames domain, ∃ best, o.BestSrv name resolver best) :
    ¬ o.SrvFailed domain resolver := by
  rintro ⟨name, hname, err, herr⟩
  obtain ⟨best, answers, hanswers, -⟩ := h name hname
  rw [hanswers] at herr
  exact nomatch herr

def Network.davRecord (o : Network) (service : DiscoveryDavService) (domain : String)
    (resolver : Url) (secureOnly : Bool) : Option (Bool × DiscoverySrvService) :=
  match (DiscoveryWebdavSrv.program domain resolver).eval o with
  | .ok report => DiscoveryDavResolve.record secureOnly
      (DiscoveryDavResolve.serviceRecords service report).1
      (DiscoveryDavResolve.serviceRecords service report).2
  | .error _ => none

theorem Network.fixesRecord (o : Network) (service : DiscoveryDavService) (domain : String)
    (resolver : Url) (secureOnly : Bool) :
    o.FixesRecord service (Text.trimMatches domain '.') resolver secureOnly
      (o.davRecord service domain resolver secureOnly) := by
  unfold davRecord
  obtain ⟨hf, err, he⟩ | ⟨b₁, b₂, b₃, b₄, h₁, h₂, h₃, h₄, he⟩ :=
    DiscoveryWebdavSrv.eval_program o domain resolver
  · rw [he]
    exact .inl hf
  · have hok : ¬ o.SrvFailed (Text.trimMatches domain '.') resolver := by
      refine Network.BestSrv.unfailed fun name hname => ?_
      simp only [davNames, List.mem_cons, List.not_mem_nil, or_false] at hname
      rcases hname with rfl | rfl | rfl | rfl
      · exact ⟨b₁, h₁⟩
      · exact ⟨b₂, h₂⟩
      · exact ⟨b₃, h₃⟩
      · exact ⟨b₄, h₄⟩
    obtain ⟨tls, plain, htls, hplain, hrecords⟩ : ∃ tls plain,
        o.BestSrv (service.srvQname true (Text.trimMatches domain '.')) resolver tls ∧
        o.BestSrv (service.srvQname false (Text.trimMatches domain '.')) resolver plain ∧
        DiscoveryDavResolve.serviceRecords service
          { caldav := b₁.map intoService, caldavs := b₂.map intoService
            carddav := b₃.map intoService, carddavs := b₄.map intoService } =
          (tls.map intoService, plain.map intoService) := by
      cases service with
      | caldav => exact ⟨b₂, b₁, h₂, h₁, rfl⟩
      | carddav => exact ⟨b₄, b₃, h₄, h₃, rfl⟩
    rw [he]
    simp only [hrecords]
    cases tls with
    -- The TLS record goes first; the plain one counts only without it, where it is allowed.
    | some best => exact ⟨hok, best, htls, rfl⟩
    | none =>
      cases plain with
      | none => exact .inr ⟨htls, .inr hplain⟩
      | some best =>
        cases secureOnly with
        | true => exact .inr ⟨htls, .inl rfl⟩
        | false => exact ⟨hok, rfl, htls, best, hplain, rfl⟩

end

section
variable [IoHttpCrate]

/-- The terminal URL of a walk that ended on a DAV server, after a redirect where one is needed. -/
def qualifying (redirected : Bool) : WalkResult → Option Url
  | .ok (some output) =>
    if (redirected = true → 0 < output.hops) ∧ (output.response.status = 207 ∨
        output.response.status = 401 ∧ IoHttpCrate.challenges output.response ≠ []) then
      some output.url
    else none
  | _ => none

theorem isContextRoot_iff (response : HttpResponse) :
    isContextRoot response = true ↔ response.status = 207 ∨
      response.status = 401 ∧ IoHttpCrate.challenges response ≠ [] := by
  unfold isContextRoot
  split <;> simp_all

def Network.txtCandidate (o : Network) (root : Option Url) : Option Url :=
  root.bind fun root => qualifying false (o.walk .txtPath (propfind root))

def candidateResult (redirected : Bool) (result : WalkResult) : CandidateResult :=
  match result with
  | .error err => .error err
  | .ok _ => .ok (qualifying redirected result)

theorem DiscoveryDavContext.finish_eq (result : WalkResult) :
    finish result = candidateResult false result := by
  rcases result with err | _ | output
  · rfl
  · rfl
  · simp only [finish, candidateResult, qualifying, ← isContextRoot_iff]
    by_cases h : isContextRoot output.response <;> simp [h]

theorem DiscoveryWellKnown.finish_eq (result : WalkResult) :
    finish result = candidateResult true result := by
  rcases result with err | _ | output
  · rfl
  · rfl
  · simp only [finish, candidateResult, qualifying, ← isContextRoot_iff]
    by_cases h : output.hops = 0
    · simp [h]
    · by_cases hr : isContextRoot output.response <;> simp [h, hr, Nat.pos_of_ne_zero h]

end

section
variable [UrlCrate] [DomainCrate] [IoHttpCrate]

def originParts (domain : String) :
    Option (Bool × DiscoverySrvService) → String × String × UInt16
  | some (true, record) => ("https", record.host, record.port)
  | some (false, record) => ("http", record.host, record.port)
  | none => ("https", domain, 443)

def davOrigin (domain : String) (record : Option (Bool × DiscoverySrvService)) :
    Except (String × String) Url :=
  parseOrigin (originParts domain record).1 (originParts domain record).2.1
    (originParts domain record).2.2

def Network.davPath (o : Network) (service : DiscoveryDavService) (domain : String)
    (resolver : Url) (record : Option (Bool × DiscoverySrvService)) :
    Except DnsLookupError (Option String) :=
  match record with
  | none => .ok none
  | some (tls, _) =>
    (o.lookup .txt readTxt (service.srvQname tls domain) resolver).map (·.findSome? recordPath)

/-- What a resolve makes of its candidates in turn: an error or a URL ends it. -/
def firstDecisive {ε α : Type} (fallback : Except ε α) : List (Except ε (Option α)) → Except ε α
  | [] => fallback
  | .error err :: _ => .error err
  | .ok (some a) :: _ => .ok a
  | .ok none :: stages => firstDecisive fallback stages

def leading {ε α : Type} : Except ε (Option α) → Option α
  | .ok root => root
  | .error _ => none

/-- No failing candidate comes before one that leads somewhere. -/
def NoFailureHides {ε α : Type} (stages : List (Except ε (Option α))) : Prop :=
  ∀ pre err post, stages = pre ++ .error err :: post → (∀ stage ∈ pre, stage = .ok none) →
    post.findSome? leading = none

omit [UrlCrate] [DomainCrate] [IoHttpCrate] in
theorem noFailureHides_cons_none {ε α : Type} {stages : List (Except ε (Option α))} :
    NoFailureHides (.ok none :: stages) ↔ NoFailureHides stages := by
  constructor
  · intro h pre err post he hpre
    exact h (.ok none :: pre) err post (by rw [he]; rfl) (by simpa using hpre)
  · intro h pre err post he hpre
    cases pre with
    | nil => exact nomatch (List.cons.inj he).1
    | cons stage pre => exact h pre err post (List.cons.inj he).2 fun s hs => hpre s (by simp [hs])

omit [UrlCrate] [DomainCrate] [IoHttpCrate] in
/-- The first candidate that leads somewhere is the answer exactly when no failure comes before. -/
theorem firstDecisive_leading_iff {ε α : Type} (fallback : Except ε α)
    (stages : List (Except ε (Option α))) :
    (∀ a, stages.findSome? leading = some a → firstDecisive fallback stages = .ok a) ↔
      NoFailureHides stages := by
  induction stages with
  | nil => simp [NoFailureHides]
  | cons stage stages ih =>
    rcases stage with err | _ | root
    · constructor
      · intro h pre err' post he hpre
        cases pre with
        | nil =>
          obtain ⟨-, rfl⟩ := List.cons.inj he
          cases hpost : stages.findSome? leading with
          | none => rfl
          -- A failure in front of a stage that leads would be returned in its place.
          | some a =>
            have ha : (.error err :: stages).findSome? leading = some a := by
              rw [List.findSome?_cons]
              exact hpost
            exact nomatch h a ha
        | cons s pre =>
          obtain ⟨rfl, -⟩ := List.cons.inj he
          exact nomatch hpre _ (List.mem_cons_self ..)
      · intro h a ha
        rw [List.findSome?_cons, leading, h [] err stages rfl (List.forall_mem_nil _)] at ha
        exact nomatch ha
    · rw [noFailureHides_cons_none, ← ih]
      exact Iff.rfl
    · refine iff_of_true (fun a ha => ?_) fun pre err post he hpre => ?_
      · rw [List.findSome?_cons, leading] at ha
        obtain rfl := Option.some.inj ha
        rfl
      · cases pre with
        | nil => exact nomatch (List.cons.inj he).1
        | cons s pre =>
          obtain ⟨rfl, -⟩ := List.cons.inj he
          exact nomatch hpre _ (List.mem_cons_self ..)

def Network.txtStage (o : Network) (service : DiscoveryDavService) (domain : String)
    (resolver : Url) (record : Option (Bool × DiscoverySrvService)) (origin : Url) :
    Except DiscoveryDavResolveError (Option Url) :=
  match o.davPath service domain resolver record with
  | .error err => .error (.txt err)
  | .ok none => .ok none
  | .ok (some path) =>
    match UrlCrate.join origin path with
    | .error err => .error (.invalidPath path err)
    | .ok root => (candidateResult false (o.walk .txtPath (propfind root))).mapError .context

def Network.wellKnownStage (o : Network) (service : DiscoveryDavService) (origin : Url) :
    Except DiscoveryDavResolveError (Option Url) :=
  match IoHttpCrate.prepareRequest (UrlCrate.asStr origin) service.serviceName with
  | .error err => .error (.wellKnown err)
  | .ok request =>
    (candidateResult true (o.walk .wellKnown (propfind request.url))).mapError .wellKnown

def Network.originStage (o : Network) (origin : Url) :
    Except DiscoveryDavResolveError (Option Url) :=
  (candidateResult false (o.walk .origin (propfind origin))).mapError .context

def Network.davStages (o : Network) (service : DiscoveryDavService) (domain : String)
    (resolver : Url) (record : Option (Bool × DiscoverySrvService)) (origin : Url) :
    List (Except DiscoveryDavResolveError (Option Url)) :=
  [o.txtStage service domain resolver record origin, o.wellKnownStage service origin,
    o.originStage origin]

/-- A domain without records whose origin is a DAV server and whose `.well-known` probe ends so. -/
def aloneNetwork (probe : Except String HttpWellKnownOutput) : Network
  | .dns _ _ _ => .ok [0, 1, 129, 128, 0, 0, 0, 0, 0, 0, 0, 0]
  | .hop .origin _ _ =>
    .ok { redirectUrl := none, response := { status := 207, headers := [], body := [] } }
  | .hop _ _ _ => probe
  | .send _ => .failed "unexpected EOF"

def aloneReplies (replies : List String) : List (List (Option Bytes)) :=
  List.replicate 4 [none, some (framed [0, 1, 129, 128, 0, 0, 0, 0, 0, 0, 0, 0])] ++
    replies.map fun reply => [none, some (Text.bytes reply)]

namespace DiscoveryDavResolve
variable (o : Network)

omit [UrlCrate] [DomainCrate] in
theorem eval_tryOrigin (origin : Url) :
    (tryOrigin origin).eval o = firstDecisive (.error (.notFound origin)) [o.originStage origin] := by
  simp only [tryOrigin, DiscoveryDavContext.program, Prog.eval_bind, Prog.eval_pure,
    DiscoveryHttpWalk.eval_program, DiscoveryDavContext.finish_eq, Network.originStage]
  rcases candidateResult false _ with err | _ | root <;> rfl

omit [DomainCrate] in
theorem eval_tryWellKnown (service : DiscoveryDavService) (origin : Url) :
    (tryWellKnown service origin).eval o = firstDecisive (.error (.notFound origin))
      [o.wellKnownStage service origin, o.originStage origin] := by
  simp only [tryWellKnown, Prog.eval_bind, DiscoveryWellKnown.program, Network.wellKnownStage]
  cases IoHttpCrate.prepareRequest (UrlCrate.asStr origin) service.serviceName with
  | error err => rfl
  | ok request =>
    simp only [Prog.eval_bind, Prog.eval_pure, DiscoveryHttpWalk.eval_program,
      DiscoveryWellKnown.finish_eq]
    rcases candidateResult true _ with err | _ | root
    · rfl
    · exact eval_tryOrigin o origin
    · rfl

omit [DomainCrate] [IoHttpCrate] in
theorem origin_eq (domain : String) (record : Option (Bool × DiscoverySrvService)) :
    origin domain record = (davOrigin domain record).mapError fun e => .invalidOrigin e.1 e.2 := by
  unfold origin davOrigin
  rcases record with _ | ⟨_ | _, record⟩ <;> simp only [originParts] <;>
    cases parseOrigin _ _ _ <;> rfl

theorem eval_tryRecord (service : DiscoveryDavService) (domain : String) (resolver : Url)
    (record : Option (Bool × DiscoverySrvService)) :
    (tryRecord service domain resolver record).eval o =
      match davOrigin domain record with
      | .error (raw, err) => .error (.invalidOrigin raw err)
      | .ok origin => firstDecisive (.error (.notFound origin))
          (o.davStages service domain resolver record origin) := by
  rw [tryRecord, origin_eq]
  cases davOrigin domain record with
  | error e => rfl
  | ok origin =>
    simp only [Except.mapError, Network.davStages, Network.txtStage, Network.davPath]
    rcases record with _ | ⟨tls, record⟩
    · exact eval_tryWellKnown o service origin
    · simp only [Option.map_some, Prog.eval_bind, DiscoveryWebdavTxt.program,
        DiscoveryDnsTxt.program, Prog.eval_pure, DnsLookup.eval_program]
      cases o.lookup .txt readTxt (service.srvQname tls domain) resolver with
      | error err => rfl
      | ok records =>
        simp only [Except.map, DiscoveryWebdavTxt.finish, afterTxt]
        cases records.findSome? recordPath with
        | none => exact eval_tryWellKnown o service origin
        | some path =>
          simp only
          cases UrlCrate.join origin path with
          | error err => rfl
          | ok root =>
            simp only [Prog.eval_bind, DiscoveryDavContext.program, Prog.eval_pure,
              DiscoveryHttpWalk.eval_program, DiscoveryDavContext.finish_eq]
            rcases candidateResult false _ with err | _ | root
            · rfl
            · exact eval_tryWellKnown o service origin
            · rfl

/-- A resolve answers with its first decisive candidate at the origin its record fixes. -/
theorem eval_program (domain : String) (service : DiscoveryDavService) (resolver : Url)
    (secureOnly : Bool) :
    (program domain service resolver secureOnly).eval o =
      (tryRecord service (Text.trimMatches domain '.') resolver
        (o.davRecord service (Text.trimMatches domain '.') resolver secureOnly)).eval o := by
  rw [program, Prog.eval_bind, Network.davRecord]
  cases (DiscoveryWebdavSrv.program (Text.trimMatches domain '.') resolver).eval o <;> rfl

theorem asked_program (domain : String) (service : DiscoveryDavService) (resolver : Url)
    (secureOnly : Bool) :
    (program domain service resolver secureOnly).asked o =
      (DiscoveryWebdavSrv.program (Text.trimMatches domain '.') resolver).asked o ++
        (tryRecord service (Text.trimMatches domain '.') resolver
          (o.davRecord service (Text.trimMatches domain '.') resolver secureOnly)).asked o := by
  rw [program, Prog.asked_bind, Network.davRecord]
  cases (DiscoveryWebdavSrv.program (Text.trimMatches domain '.') resolver).eval o <;> rfl

def NoDns (q : Exchange) : Prop := ∀ qtype name resolver, q ≠ .dns qtype name resolver

omit [UrlCrate] [DomainCrate] [IoHttpCrate] in
theorem walksStay_noDns : WalksStay NoDns (fun _ _ => True) fun _ => True :=
  ⟨fun _ _ _ _ => nofun, fun _ _ _ _ _ _ _ _ => trivial⟩

omit [DomainCrate] in
theorem tryWellKnown_noDns (service : DiscoveryDavService) (origin : Url) :
    ∀ q ∈ (tryWellKnown service origin).asked o, NoDns q :=
  (tryWellKnown_always walksStay_noDns trivial fun _ _ => trivial).asked fun _ => trivial

omit [DomainCrate] in
theorem afterTxt_noDns (service : DiscoveryDavService) (origin : Url) (result : WebdavTxtResult) :
    ∀ q ∈ (afterTxt service origin result).asked o, NoDns q :=
  (afterTxt_always walksStay_noDns trivial (fun _ _ => trivial) fun _ _ _ _ => trivial).asked
    fun _ => trivial

omit [UrlCrate] [IoHttpCrate] in
theorem webdavSrv_asked (domain : String) (resolver : Url) :
    ∀ q ∈ (DiscoveryWebdavSrv.program domain resolver).asked o, ∃ name, q = .dns .srv name resolver :=
  have h : (DiscoveryWebdavSrv.program domain resolver).Always
      (fun q => ∃ name, q = .dns .srv name resolver) (fun _ _ => True) fun _ => True :=
    SrvSeries.always _ (fun _ _ _ => ⟨_, rfl⟩) _
  h.asked fun _ => trivial

omit [UrlCrate] [IoHttpCrate] in
theorem txt_asked {qname : String} {resolver : Url} {path : Option String}
    (h : (o.lookup .txt readTxt qname resolver).map (·.findSome? recordPath) = .ok path) :
    (DiscoveryWebdavTxt.program qname resolver).asked o = [.dns .txt qname resolver] := by
  unfold Network.lookup at h
  unfold DiscoveryWebdavTxt.program DiscoveryDnsTxt.program DnsLookup.program
  cases hm : queryMessage .txt qname with
  | error err => simp [hm, Except.map] at h
  | ok message => rfl

/-- The TXT lookup is the one of the record that fixed the origin, and there is none without. -/
theorem txt_asked_iff {service : DiscoveryDavService} {domain : String} {resolver : Url}
    {record : Option (Bool × DiscoverySrvService)} {origin : Url} {path : Option String}
    (horigin : davOrigin domain record = .ok origin)
    (hpath : o.davPath service domain resolver record = .ok path) (name : String) (r : Url) :
    Exchange.dns .txt name r ∈ (tryRecord service domain resolver record).asked o ↔
      ∃ fixed, record = some fixed ∧ name = service.srvQname fixed.1 domain ∧ r = resolver := by
  rw [tryRecord, origin_eq, horigin]
  rcases record with _ | ⟨tls, record⟩
  · refine iff_of_false (fun hq => ?_) (by simp)
    exact tryWellKnown_noDns o service origin _ hq .txt name r rfl
  · simp only [Except.mapError, Option.map_some, Prog.asked_bind, txt_asked o hpath, List.mem_append,
      List.mem_singleton, Exchange.dns.injEq, true_and]
    constructor
    · rintro (⟨rfl, rfl⟩ | hq)
      · exact ⟨_, rfl, rfl, rfl⟩
      · exact absurd rfl (afterTxt_noDns o service origin _ _ hq .txt name r)
    · rintro ⟨fixed, hfixed, rfl, rfl⟩
      obtain rfl := Option.some.inj hfixed
      exact .inl ⟨rfl, rfl⟩

def joinPath (origin : Url) : Option String → Except String (Option Url)
  | none => .ok none
  | some path => (UrlCrate.join origin path).map some

theorem outcome_eq {domain : String} {service : DiscoveryDavService} {resolver : Url}
    {secureOnly : Bool} {args : List (Option Bytes)} {origin : Url}
    {record : Option (Bool × DiscoverySrvService)} {o : Network}
    (hserves : Serves exchanges o (program domain service resolver secureOnly) args)
    (hrecord : o.davRecord service (Text.trimMatches domain '.') resolver secureOnly = record)
    (horigin : davOrigin (Text.trimMatches domain '.') record = .ok origin) :
    outcome resume ((new domain service resolver).withSecureOnly secureOnly) (none :: args) =
      some (firstDecisive (.error (.notFound origin))
        (o.davStages service (Text.trimMatches domain '.') resolver record origin)) := by
  rw [refines.outcome_eq (toProc_new domain service resolver secureOnly none) hserves, eval_program,
    hrecord, eval_tryRecord, horigin]

omit [UrlCrate] [DomainCrate] in
theorem candidateResult_ok {redirected : Bool} {result : WalkResult}
    (h : ∀ err, result ≠ .error err) :
    candidateResult redirected result = .ok (qualifying redirected result) := by
  cases result with
  | error err => exact absurd rfl (h err)
  | ok output => rfl

/-- Where no lookup and no walk fails, a resolve completes with the terminal URL of the first
candidate that qualifies, in the order TXT path, `.well-known`, origin. -/
theorem completes_first_candidate (o : Network) (domain : String) (service : DiscoveryDavService)
    (resolver : Url) (secureOnly : Bool) (args : List (Option Bytes))
    {record : Option (Bool × DiscoverySrvService)} {origin : Url} {path : Option String}
    {txtRoot : Option Url} {probe : HttpRequest}
    (hserves : Serves exchanges o (program domain service resolver secureOnly) args)
    (hrecord : o.davRecord service (Text.trimMatches domain '.') resolver secureOnly = record)
    (horigin : davOrigin (Text.trimMatches domain '.') record = .ok origin)
    (hpath : o.davPath service (Text.trimMatches domain '.') resolver record = .ok path)
    (hjoin : joinPath origin path = .ok txtRoot)
    (hprobe : IoHttpCrate.prepareRequest (UrlCrate.asStr origin) service.serviceName = .ok probe)
    (htxtWalk : ∀ root err, txtRoot = some root → o.walk .txtPath (propfind root) ≠ .error err)
    (hprobeWalk : o.txtCandidate txtRoot = none →
      ∀ err, o.walk .wellKnown (propfind probe.url) ≠ .error err)
    (horiginWalk : o.txtCandidate txtRoot = none →
      qualifying true (o.walk .wellKnown (propfind probe.url)) = none →
        ∀ err, o.walk .origin (propfind origin) ≠ .error err) :
    outcome resume ((new domain service resolver).withSecureOnly secureOnly) (none :: args) =
      some (match (o.txtCandidate txtRoot).or
          ((qualifying true (o.walk .wellKnown (propfind probe.url))).or
            (qualifying false (o.walk .origin (propfind origin)))) with
        | some url => .ok url
        | none => .error (.notFound origin)) ∧
    o.FixesRecord service (Text.trimMatches domain '.') resolver secureOnly record ∧
    (secureOnly = true → (originParts (Text.trimMatches domain '.') record).1 = "https") ∧
    ∀ name r, Exchange.dns .txt name r ∈ (program domain service resolver secureOnly).asked o ↔
      ∃ fixed, record = some fixed ∧
        name = service.srvQname fixed.1 (Text.trimMatches domain '.') ∧ r = resolver := by
  have hfixes := hrecord ▸ o.fixesRecord service (Text.trimMatches domain '.') resolver secureOnly
  rw [Text.trimMatches_trimMatches] at hfixes
  refine ⟨?_, hfixes, fun hsecure => ?_, fun name r => ?_⟩
  -- The stages are run in turn: each is only reached when those before it found nothing.
  · have htxt : o.txtStage service (Text.trimMatches domain '.') resolver record origin =
        .ok (o.txtCandidate txtRoot) := by
      rw [Network.txtStage, hpath]
      cases path with
      | none =>
        obtain rfl : none = txtRoot := by simpa [joinPath] using hjoin
        rfl
      | some path =>
        simp only [joinPath] at hjoin ⊢
        cases hroot : UrlCrate.join origin path with
        | error err => simp [hroot, Except.map] at hjoin
        | ok root =>
          obtain rfl : some root = txtRoot := by simpa [hroot, Except.map] using hjoin
          simp only [candidateResult_ok fun err => htxtWalk root err rfl]
          rfl
    rw [outcome_eq hserves hrecord horigin, Network.davStages, htxt]
    cases hroot : o.txtCandidate txtRoot with
    | some root => rfl
    | none =>
      have hwell : o.wellKnownStage service origin =
          .ok (qualifying true (o.walk .wellKnown (propfind probe.url))) := by
        simp only [Network.wellKnownStage, hprobe, candidateResult_ok (hprobeWalk hroot)]
        rfl
      rw [hwell]
      cases hwellRoot : qualifying true (o.walk .wellKnown (propfind probe.url)) with
      | some root => rfl
      | none =>
        have hlast : o.originStage origin =
            .ok (qualifying false (o.walk .origin (propfind origin))) := by
          simp only [Network.originStage, candidateResult_ok (horiginWalk hroot hwellRoot)]
          rfl
        rw [hlast]
        cases qualifying false (o.walk .origin (propfind origin)) <;> rfl
  · rcases record with _ | ⟨_ | _, record⟩
    · rfl
    · exact nomatch hsecure.symm.trans hfixes.2.1
    · rfl
  -- The SRV lookups ask no TXT question, so the record alone decides.
  · rw [asked_program, List.mem_append, hrecord, txt_asked_iff o horigin hpath]
    refine or_iff_right fun hq => ?_
    obtain ⟨_, hq⟩ := webdavSrv_asked o _ _ _ hq
    exact nomatch hq

end DiscoveryDavResolve
end

namespace DiscoveryDavResolve

theorem completes_origin_candidate :
    letI := plainUrl
    letI := plainDns
    letI := plainHttp
    outcome resume ((new "example.org" .caldav exampleResolver).withSecureOnly true)
      (none :: (aloneReplies ["HTTP/1.1 404 Not Found\r\n\r\n", "HTTP/1.1 207 Multi-Status\r\n\r\n"]).flatten) =
        some (.ok exampleOrigin) := by
  let _ := plainUrl
  let _ := plainDns
  let _ := plainHttp
  let o := aloneNetwork
    (.ok { redirectUrl := none, response := { status := 404, headers := [], body := [] } })
  have hserves : serves exchanges o (program "example.org" .caldav exampleResolver true)
      (aloneReplies ["HTTP/1.1 404 Not Found\r\n\r\n", "HTTP/1.1 207 Multi-Status\r\n\r\n"]) = true := by
    decide +kernel
  have hprobe : IoHttpCrate.prepareRequest (UrlCrate.asStr exampleOrigin) "caldav" =
      .ok (HttpRequest.get { exampleOrigin with path := "/.well-known/caldav" }) := by
    decide +kernel
  have hprobeWalk : o.walk .wellKnown (propfind { exampleOrigin with path := "/.well-known/caldav" }) =
      .ok (some
        { url := { exampleOrigin with path := "/.well-known/caldav" }, hops := 0
          response := { status := 404, headers := [], body := [] } }) := by
    decide +kernel
  have horiginWalk : o.walk .origin (propfind exampleOrigin) =
      .ok (some
        { url := exampleOrigin, hops := 0
          response := { status := 207, headers := [], body := [] } }) := by
    decide +kernel
  refine (completes_first_candidate o "example.org" .caldav exampleResolver true _
    (serves_sound hserves) (by decide +kernel : _ = none) (by decide +kernel) rfl rfl hprobe
    nofun (fun _ err => hprobeWalk ▸ nofun) (fun _ _ err => horiginWalk ▸ nofun)).1.trans ?_
  decide +kernel

section
variable [UrlCrate] [DomainCrate] [IoHttpCrate]

/-- The resolve completes with the first candidate that leads to a DAV server, one that could not be
checked leading nowhere, exactly when no failing candidate comes before it. -/
theorem completes_working_candidate_iff (o : Network) (domain : String)
    (service : DiscoveryDavService) (resolver : Url) (secureOnly : Bool) (args : List (Option Bytes))
    {record : Option (Bool × DiscoverySrvService)} {origin : Url}
    (hserves : Serves exchanges o (program domain service resolver secureOnly) args)
    (hrecord : o.davRecord service (Text.trimMatches domain '.') resolver secureOnly = record)
    (horigin : davOrigin (Text.trimMatches domain '.') record = .ok origin) :
    (∀ root, (o.davStages service (Text.trimMatches domain '.') resolver record origin).findSome?
        leading = some root →
      outcome resume ((new domain service resolver).withSecureOnly secureOnly) (none :: args) =
        some (.ok root)) ↔
    NoFailureHides (o.davStages service (Text.trimMatches domain '.') resolver record origin) := by
  rw [outcome_eq hserves hrecord horigin, ← firstDecisive_leading_iff (.error (.notFound origin))]
  simp only [Option.some.injEq]

end

/-- A `.well-known` probe that is cut off hides the origin, which is a DAV server. -/
theorem cut_probe_hides_origin :
    letI := plainUrl
    letI := plainDns
    letI := plainHttp
    let o := aloneNetwork (.error "unexpected EOF")
    Serves exchanges o (program "example.org" .caldav exampleResolver false)
      (aloneReplies [""]).flatten ∧
    (o.davStages .caldav "example.org" exampleResolver none exampleOrigin).findSome? leading =
      some exampleOrigin ∧
    outcome resume ((new "example.org" .caldav exampleResolver).withSecureOnly false)
      (none :: (aloneReplies [""]).flatten) = some (.error (.wellKnown "unexpected EOF")) := by
  let _ := plainUrl
  let _ := plainDns
  let _ := plainHttp
  have hserves : serves exchanges (aloneNetwork (.error "unexpected EOF"))
      (program "example.org" .caldav exampleResolver false) (aloneReplies [""]) = true := by
    decide +kernel
  exact ⟨serves_sound hserves, by decide +kernel, by decide +kernel⟩

theorem cut_probe_not_noFailureHides :
    letI := plainUrl
    letI := plainDns
    letI := plainHttp
    ¬ NoFailureHides ((aloneNetwork (.error "unexpected EOF")).davStages .caldav "example.org"
      exampleResolver none exampleOrigin) := by
  let _ := plainUrl
  let _ := plainDns
  let _ := plainHttp
  intro h
  have hserves : serves exchanges (aloneNetwork (.error "unexpected EOF"))
      (program "example.org" .caldav exampleResolver false) (aloneReplies [""]) = true := by
    decide +kernel
  have horigin : davOrigin (Text.trimMatches "example.org" '.') none = .ok exampleOrigin := by
    decide +kernel
  have htrim : Text.trimMatches "example.org" '.' = "example.org" := by decide +kernel
  have hcomplete := (completes_working_candidate_iff (aloneNetwork (.error "unexpected EOF"))
    "example.org" .caldav exampleResolver false _ (serves_sound hserves) (by decide +kernel)
    horigin).mpr (htrim.symm ▸ h) exampleOrigin (by decide +kernel)
  exact absurd hcomplete (by decide +kernel)

end DiscoveryDavResolve
end PimDiscovery
