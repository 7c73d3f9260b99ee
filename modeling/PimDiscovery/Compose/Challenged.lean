import PimDiscovery.Compose.Client
import PimDiscovery.Compose.Refined
import PimDiscovery.PlainNet
import PimDiscovery.Rfc8620.Resolve
import PimDiscovery.Shared.Chain

/-! Which responses the authentication schemes of an endpoint are learned from. -/

namespace PimDiscovery
open Interaction

section
variable [IoHttpCrate]

structure EndedWalk (request : HttpRequest) where
  redirects : List HopExchange
  final : HopExchange
  redirected : Redirected request redirects final.request
  complete : final.Complete
  bounded : redirects.length ≤ maxHops
  ended : ∀ next, final.target = some next → redirects.length = maxHops

namespace EndedWalk
variable {request : HttpRequest} (walk : EndedWalk request)

def inputs : List (Option Bytes) := none :: (walk.redirects ++ [walk.final]).flatMap (·.used)

def result : WalkResult := walk.final.result walk.redirects.length

def terminal : Option HttpResponse :=
  match walk.result with
  | .ok (some output) => some output.response
  | .ok none | .error _ => none

def Challenged : Prop := ∃ response, walk.terminal = some response ∧ response.status = 401

def Successful : Prop :=
  ∃ response, walk.terminal = some response ∧ 200 ≤ response.status ∧ response.status ≤ 299

theorem terminal_eq_some {response : HttpResponse} : walk.terminal = some response ↔
    ∃ output, walk.result = .ok (some output) ∧ output.response = response := by
  unfold terminal
  split
  · rename_i output houtput
    simp [houtput]
  · rename_i hlooped
    simp [hlooped]
  · rename_i err herr
    simp [herr]

variable [DomainCrate]

theorem outcome_probe {π : Type} (finish : WalkResult → π) :
    outcome (fun self arg => (DiscoveryHttpWalk.resume self arg).mapResult finish)
      (DiscoveryHttpWalk.new request) walk.inputs = some (finish walk.result) := by
  have hends := DiscoveryHttpWalk.ends_of_last walk.redirected walk.complete walk.bounded walk.ended
  rw [outcome_mapResult, inputs, hends.outcome]
  rfl

end EndedWalk

/-- What the runs of a probe thread are made of: for each URL that it asks, the walk from there. -/
abbrev ProbeWalk := Sigma fun target : Url => EndedWalk (HttpRequest.get target)

inductive ProbedBy : (job : Job) → List ProbeWalk → Option job.Answer → Prop where
  | walked {target : Url} (walk : EndedWalk (HttpRequest.get target)) {answer : ProbeAuthResult}
      (h : outcome DiscoveryProbeAuth.resume (DiscoveryProbeAuth.new target) walk.inputs = some answer) :
      ProbedBy (.auth target) [⟨target, walk⟩] (some answer)

/-- The response that the schemes of an endpoint are learned from: the first one with a challenge. -/
def learnedFrom (walks : List ProbeWalk) : Option HttpResponse :=
  (walks.filterMap fun walk => walk.2.terminal).find? fun response =>
    !(IoHttpCrate.challenges response).isEmpty

theorem learnedFrom_first {walk : ProbeWalk} {response : HttpResponse}
    (h : walk.2.terminal = some response) (hsome : IoHttpCrate.challenges response ≠ [])
    (walks : List ProbeWalk) : learnedFrom (walk :: walks) = some response := by
  simp only [learnedFrom, List.filterMap_cons, h]
  rw [List.find?_cons_of_pos]
  simpa using hsome

theorem learnedFrom_skip {walk : ProbeWalk}
    (h : ∀ response, walk.2.terminal = some response → IoHttpCrate.challenges response = [])
    (walks : List ProbeWalk) : learnedFrom (walk :: walks) = learnedFrom walks := by
  cases hterminal : walk.2.terminal with
  | none => simp only [learnedFrom, List.filterMap_cons, hterminal]
  | some response =>
    simp only [learnedFrom, List.filterMap_cons, hterminal]
    rw [List.find?_cons_of_neg]
    simp [h response hterminal]

variable [DomainCrate]

namespace DiscoveryProbeAuth
variable {target : Url} (walk : EndedWalk (HttpRequest.get target))

theorem outcome_eq : outcome resume (new target) walk.inputs = some (finish walk.result) :=
  walk.outcome_probe finish

omit [DomainCrate] in
theorem finish_of_terminal {response : HttpResponse} (h : walk.terminal = some response) :
    finish walk.result = .ok (IoHttpCrate.challenges response) := by
  obtain ⟨output, houtput, rfl⟩ := walk.terminal_eq_some.mp h
  rw [houtput, finish]

omit [DomainCrate] in
theorem terminal_of_finish {schemes : List String} (h : finish walk.result = .ok schemes)
    (hsome : schemes ≠ []) :
    ∃ response, walk.terminal = some response ∧ IoHttpCrate.challenges response = schemes := by
  rcases hresult : walk.result with err | _ | output
  · rw [hresult] at h
    cases h
  · rw [hresult] at h
    exact absurd (Except.ok.inj h).symm hsome
  · rw [hresult] at h
    have hterminal := walk.terminal_eq_some.mpr ⟨output, hresult, rfl⟩
    exact ⟨output.response, hterminal, Except.ok.inj h⟩

omit [DomainCrate] in
theorem challenged_iff : (∀ schemes, finish walk.result = .ok schemes → schemes ≠ [] → walk.Challenged) ↔
    ∀ response, walk.terminal = some response →
      response.status = 401 ∨ IoHttpCrate.challenges response = [] := by
  constructor
  · intro h response hterminal
    by_cases hsome : IoHttpCrate.challenges response = []
    · exact .inr hsome
    · obtain ⟨response', hterminal', hstatus⟩ := h _ (finish_of_terminal walk hterminal) hsome
      obtain rfl := Option.some.inj (hterminal.symm.trans hterminal')
      exact .inl hstatus
  · intro h schemes hschemes hsome
    obtain ⟨response, hterminal, rfl⟩ := terminal_of_finish walk hschemes hsome
    exact ⟨response, hterminal, (h response hterminal).resolve_right hsome⟩

end DiscoveryProbeAuth

namespace DiscoveryJmapWellKnown
variable [UrlCrate] [SerdeCrate] {origin : Url} (walk : EndedWalk (request origin))

theorem outcome_eq : outcome resume (new origin) walk.inputs = some (finish walk.result) :=
  walk.outcome_probe finish

omit [DomainCrate] in
theorem finish_eq_session {session : DiscoveryJmapSessionResource} :
    finish walk.result = .ok (some session) ↔ ∃ output, walk.result = .ok (some output) ∧
      IsSessionResponse output.response ∧
      session = { url := output.url, authSchemes := IoHttpCrate.challenges output.response } := by
  rcases hresult : walk.result with err | _ | output
  · simp [finish]
  · simp [finish]
  · have hvalid := isValidated_iff output.response
    cases hcase : isValidated output.response (IoHttpCrate.challenges output.response) with
    | false =>
      rw [hcase] at hvalid
      simp [finish, hcase, ← hvalid]
    | true =>
      rw [hcase] at hvalid
      simp only [finish, hcase, Bool.not_true, Bool.false_eq_true, if_false, Except.ok.injEq,
        Option.some.injEq, exists_eq_left', hvalid.mp, true_and]
      exact eq_comm

omit [DomainCrate] in
/-- A session is reported with the schemes of a 401 only, and converted to methods of a 401 only, exactly
if no 2xx that is a session carries a challenge. -/
theorem challenged_iff :
    (∀ session, finish walk.result = .ok (some session) →
      (session.authSchemes ≠ [] → walk.Challenged) ∧
      (walk.Successful → session.authSchemes = [] ∧
        (DiscoveryServiceConfig.fromJmap (UrlCrate.asStr session.url) session.authSchemes).auth = [])) ↔
    ∀ response, walk.terminal = some response → 200 ≤ response.status → response.status ≤ 299 →
      IsSessionBody response.body → IoHttpCrate.challenges response = [] := by
  constructor
  · intro h response hterminal hlow hhigh hbody
    obtain ⟨output, houtput, rfl⟩ := walk.terminal_eq_some.mp hterminal
    have hsession := (finish_eq_session walk).mpr
      ⟨output, houtput, .inl ⟨hlow, hhigh, hbody⟩, rfl⟩
    exact ((h _ hsession).2 ⟨output.response, hterminal, hlow, hhigh⟩).1
  · intro h session hsession
    obtain ⟨output, houtput, hvalid, rfl⟩ := (finish_eq_session walk).mp hsession
    have hterminal := walk.terminal_eq_some.mpr ⟨output, houtput, rfl⟩
    rcases hvalid with ⟨hlow, hhigh, hbody⟩ | ⟨hstatus, -⟩
    · have hnone := h output.response hterminal hlow hhigh hbody
      refine ⟨fun hsome => absurd hnone hsome, fun _ => ⟨hnone, ?_⟩⟩
      simp only [DiscoveryServiceConfig.fromJmap, hnone]
      rfl
    · refine ⟨fun _ => ⟨output.response, hterminal, hstatus⟩, fun ⟨response, hresponse, _, hhigh⟩ => ?_⟩
      obtain rfl := Option.some.inj (hterminal.symm.trans hresponse)
      omega

end DiscoveryJmapWellKnown

namespace DiscoveryComposeClientStd

theorem probeSchemes_learned {urls : List Url} {walks : List ProbeWalk}
    {schemes : Option (List String)} (h : (probeSchemes urls).Emits ProbedBy walks (some schemes)) :
    schemes = (learnedFrom walks).map IoHttpCrate.challenges := by
  induction urls generalizing walks with
  | nil =>
    obtain ⟨rfl, rfl⟩ : walks = [] ∧ schemes = none := by cases h; exact ⟨rfl, rfl⟩
    rfl
  | cons url urls ih =>
    cases h with
    | answered hprobe hrest =>
      cases hprobe with
      | walked walk hanswer =>
        rw [DiscoveryProbeAuth.outcome_eq] at hanswer
        obtain rfl := Option.some.inj hanswer
        cases hfinish : DiscoveryProbeAuth.finish walk.result with
        | error err =>
          rw [hfinish] at hrest
          rw [List.singleton_append, learnedFrom_skip _, ih hrest]
          intro response hterminal
          rw [DiscoveryProbeAuth.finish_of_terminal walk hterminal] at hfinish
          cases hfinish
        | ok found =>
          rw [hfinish] at hrest
          by_cases hsome : found = []
          · subst hsome
            rw [List.singleton_append, learnedFrom_skip _, ih hrest]
            intro response hterminal
            rw [DiscoveryProbeAuth.finish_of_terminal walk hterminal] at hfinish
            exact Except.ok.inj hfinish
          · obtain ⟨response, hterminal, rfl⟩ :=
              DiscoveryProbeAuth.terminal_of_finish walk hfinish hsome
            rw [List.singleton_append, learnedFrom_first hterminal hsome]
            have hfound : Prog.Emits ProbedBy
                (if !(IoHttpCrate.challenges response).isEmpty then
                  pure (some (IoHttpCrate.challenges response)) else probeSchemes urls) _
                (some schemes) := hrest
            rw [if_pos (by simpa using hsome)] at hfound
            cases hfound
            rfl

open DiscoveryServiceConfig in
variable [UrlCrate] in
/-- The methods of a config change by a 401 only, exactly if the response that is learned from names no
scheme that they do not follow from already. -/
theorem refined_challenged_iff {config : DiscoveryServiceConfig} {walks : List ProbeWalk}
    {schemes : Option (List String)}
    (h : (probeSchemes config.probeUrls).Emits ProbedBy walks (some schemes)) :
    ((refineProbed config schemes).auth ≠ config.auth →
      ∃ response, learnedFrom walks = some response ∧ response.status = 401) ↔
    ∀ response, learnedFrom walks = some response → response.status = 401 ∨
      ("basic" ∉ IoHttpCrate.challenges response ∧ "bearer" ∉ IoHttpCrate.challenges response) ∨
      config.auth = schemeMethods (IoHttpCrate.challenges response) ++ config.oauthMethods := by
  rw [probeSchemes_learned h]
  cases hlearned : learnedFrom walks with
  | none => simp [refineProbed]
  | some response =>
    simp only [Option.map_some, refineProbed, Option.some.injEq, exists_eq_left', forall_eq']
    by_cases hnil : schemeMethods (IoHttpCrate.challenges response) = []
    · rw [refineAuth_of_eq_nil config hnil]
      exact iff_of_true (fun hne => absurd rfl hne) (.inr (.inl (schemeMethods_eq_nil.mp hnil)))
    · rw [refineAuth_of_ne_nil config hnil, or_iff_right (mt schemeMethods_eq_nil.mpr hnil)]
      constructor
      · intro hchanged
        by_cases hsame : config.auth = schemeMethods (IoHttpCrate.challenges response) ++
            config.oauthMethods
        · exact .inr hsame
        · exact .inl (hchanged (Ne.symm hsame))
      · rintro (hstatus | hsame) hne
        · exact hstatus
        · exact absurd hsame.symm hne

end DiscoveryComposeClientStd

variable [UrlCrate] [SerdeCrate]

/-- Methods are learned from a 401 only exactly where no other response brings a challenge along: for the
probe of an endpoint, any other terminal response; for the session probe, a 2xx that is a session; for a
config that is refined, the response that its schemes come from, unless these name no method or leave the
methods as they are. -/
theorem methods_learned_from_challenge_iff :
    (∀ (target : Url) (walk : EndedWalk (HttpRequest.get target)), ∃ result,
      outcome DiscoveryProbeAuth.resume (DiscoveryProbeAuth.new target) walk.inputs = some result ∧
      ((∀ schemes, result = .ok schemes → schemes ≠ [] → walk.Challenged) ↔
        ∀ response, walk.terminal = some response →
          response.status = 401 ∨ IoHttpCrate.challenges response = [])) ∧
    (∀ (origin : Url) (walk : EndedWalk (DiscoveryJmapWellKnown.request origin)), ∃ result,
      outcome DiscoveryJmapWellKnown.resume (DiscoveryJmapWellKnown.new origin) walk.inputs =
        some result ∧
      ((∀ session, result = .ok (some session) →
          (session.authSchemes ≠ [] → walk.Challenged) ∧
          (walk.Successful → session.authSchemes = [] ∧
            (DiscoveryServiceConfig.fromJmap (UrlCrate.asStr session.url) session.authSchemes).auth =
              [])) ↔
        ∀ response, walk.terminal = some response → 200 ≤ response.status → response.status ≤ 299 →
          IsSessionBody response.body → IoHttpCrate.challenges response = [])) ∧
    ∀ (config : DiscoveryServiceConfig) (walks : List ProbeWalk) (schemes : Option (List String)),
      (DiscoveryComposeClientStd.probeSchemes config.probeUrls).Emits ProbedBy walks (some schemes) →
      (((DiscoveryComposeClientStd.refineProbed config schemes).auth ≠ config.auth →
          ∃ response, learnedFrom walks = some response ∧ response.status = 401) ↔
        ∀ response, learnedFrom walks = some response → response.status = 401 ∨
          ("basic" ∉ IoHttpCrate.challenges response ∧ "bearer" ∉ IoHttpCrate.challenges response) ∨
          config.auth = schemeMethods (IoHttpCrate.challenges response) ++ config.oauthMethods) := by
  refine ⟨fun target walk => ?_, fun origin walk => ?_, fun config walks schemes h => ?_⟩
  · exact ⟨_, DiscoveryProbeAuth.outcome_eq walk, DiscoveryProbeAuth.challenged_iff walk⟩
  · exact ⟨_, DiscoveryJmapWellKnown.outcome_eq walk, DiscoveryJmapWellKnown.challenged_iff walk⟩
  · exact DiscoveryComposeClientStd.refined_challenged_iff h

end

def openSessionJson : String :=
  "\x7b\"capabilities\":\x7b\"urn:ietf:params:jmap:core\":\x7b\x7d\x7d,\"apiUrl\":\"/api\"\x7d"

def openReply : Bytes :=
  Text.bytes ("HTTP/1.1 200 OK\r\nWWW-Authenticate: Basic realm=mail\r\n\r\n" ++ openSessionJson)

@[reducible] def openSerde : SerdeCrate :=
  { plainSerde with
    parseValue := fun body =>
      if body = Text.bytes openSessionJson then .ok (.object
        [("capabilities", .object [(jmapCore, .object [])]), ("apiUrl", .string "/api")])
      else .error "expected value" }

def openExchange (request : HttpRequest) : HopExchange where
  request := request
  used := [none, some openReply]
  answer := .ok
    { redirectUrl := none
      response := { status := 200, headers := [("www-authenticate", "Basic realm=mail")]
                    body := Text.bytes openSessionJson } }

theorem openExchange_complete :
    @HopExchange.Complete plainHttp (openExchange (HttpRequest.get exampleOrigin)) ∧
      @HopExchange.Complete plainHttp
        (openExchange (@DiscoveryJmapWellKnown.request plainUrl exampleOrigin)) := by
  let _ := plainHttp
  unfold HopExchange.Complete
  decide +kernel

def openWalk (request : HttpRequest) (h : @HopExchange.Complete plainHttp (openExchange request)) :
    @EndedWalk plainHttp request :=
  let _ := plainHttp
  { redirects := [], final := openExchange request, redirected := .refl _, complete := h
    bounded := Nat.zero_le _, ended := fun _ h => by cases h }

def openProbe : @EndedWalk plainHttp (HttpRequest.get exampleOrigin) :=
  openWalk _ openExchange_complete.1

def openSession : @EndedWalk plainHttp (@DiscoveryJmapWellKnown.request plainUrl exampleOrigin) :=
  openWalk _ openExchange_complete.2

/-- A 200 with a challenge beside the session: both probes report its scheme, and a config that took tokens
only is made to take passwords only. -/
theorem open_session_teaches_password :
    letI := plainUrl
    letI := plainDns
    letI := plainHttp
    letI := openSerde
    let config := DiscoveryServiceConfig.fromJmap "https://example.org/" ["bearer"]
    outcome DiscoveryProbeAuth.resume (DiscoveryProbeAuth.new exampleOrigin) openProbe.inputs =
      some (.ok ["basic"]) ∧
    openProbe.Successful ∧ ¬ openProbe.Challenged ∧
    outcome DiscoveryJmapWellKnown.resume (DiscoveryJmapWellKnown.new exampleOrigin)
      openSession.inputs = some (.ok (some
        { url := { exampleOrigin with path := "/.well-known/jmap" }, authSchemes := ["basic"] })) ∧
    openSession.Successful ∧
    (DiscoveryServiceConfig.fromJmap "https://example.org/" ["basic"]).auth = [.password] ∧
    (DiscoveryComposeClientStd.probeSchemes config.probeUrls).Emits ProbedBy
      [⟨exampleOrigin, openProbe⟩] (some (some ["basic"])) ∧
    config.auth = [.bearer] ∧
    (DiscoveryComposeClientStd.refineProbed config (some ["basic"])).auth = [.password] := by
  let _ := plainUrl
  let _ := plainDns
  let _ := plainHttp
  let _ := openSerde
  have hreports : outcome DiscoveryProbeAuth.resume (DiscoveryProbeAuth.new exampleOrigin)
      openProbe.inputs = some (.ok ["basic"]) := by
    rw [DiscoveryProbeAuth.outcome_eq]
    decide +kernel
  have hunchallenged : ¬ openProbe.Challenged := by
    rintro ⟨response, hresponse, hstatus⟩
    obtain rfl := Option.some.inj hresponse
    exact absurd hstatus (by decide)
  have hsession : outcome DiscoveryJmapWellKnown.resume (DiscoveryJmapWellKnown.new exampleOrigin)
      openSession.inputs = some (.ok (some
        { url := { exampleOrigin with path := "/.well-known/jmap" }, authSchemes := ["basic"] })) := by
    rw [DiscoveryJmapWellKnown.outcome_eq]
    decide +kernel
  have hurls : (DiscoveryServiceConfig.fromJmap "https://example.org/" ["bearer"]).probeUrls =
      [exampleOrigin] := by decide +kernel
  refine ⟨hreports, ⟨_, rfl, by decide, by decide⟩, hunchallenged, hsession,
    ⟨_, rfl, by decide, by decide⟩, by decide, ?_, rfl, by decide⟩
  rw [hurls]
  have hprobed : ProbedBy (.auth exampleOrigin) [⟨exampleOrigin, openProbe⟩] (some (.ok ["basic"])) :=
    .walked openProbe hreports
  have hprobe : (DiscoveryComposeClientStd.probeSchemes [exampleOrigin]).Emits ProbedBy
      ([⟨exampleOrigin, openProbe⟩] ++ []) (some (some ["basic"])) := by
    apply Prog.Emits.answered hprobed
    exact .pure _
  exact hprobe

end PimDiscovery
