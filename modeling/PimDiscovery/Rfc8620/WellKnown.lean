import PimDiscovery.Documents
import PimDiscovery.Shared.Walk

/-! The `.well-known/jmap` probe: where its redirect walk ends, and whether a session lives there. -/

namespace PimDiscovery
open Interaction

def jmapCore : String := "urn:ietf:params:jmap:core"

structure DiscoveryJmapSessionResource where
  url : Url
  authSchemes : List String
  deriving DecidableEq, Repr

section
variable [SerdeCrate]

def isSession (body : Bytes) : Bool :=
  match SerdeCrate.parseValue body with
  | .error _ => false
  | .ok session =>
    let core := match (session.get "capabilities").bind JsonValue.asObject with
      | some capabilities => (capabilities.lookup jmapCore).isSome
      | none => false
    core && ((session.get "apiUrl").map JsonValue.isString).getD false

def IsSessionBody (body : Bytes) : Prop :=
  ∃ session capabilities core apiUrl, SerdeCrate.parseValue body = .ok (.object session) ∧
    session.lookup "capabilities" = some (.object capabilities) ∧
    capabilities.lookup jmapCore = some core ∧ session.lookup "apiUrl" = some (.string apiUrl)

theorem isSession_iff (body : Bytes) : isSession body = true ↔ IsSessionBody body := by
  unfold isSession IsSessionBody
  cases SerdeCrate.parseValue body with
  | error err => simp
  | ok session =>
    simp only [Bool.and_eq_true, Except.ok.injEq]
    constructor
    · rintro ⟨hcore, hurl⟩
      cases hcaps : (session.get "capabilities").bind JsonValue.asObject with
      | none => simp [hcaps] at hcore
      | some capabilities =>
        obtain ⟨value, hvalue, hobject⟩ := Option.bind_eq_some_iff.mp hcaps
        rw [hcaps] at hcore
        obtain ⟨core, hcore⟩ := Option.isSome_iff_exists.mp hcore
        obtain ⟨entries, rfl⟩ := JsonValue.get_eq_some hvalue
        rw [JsonValue.asObject_eq_some.mp hobject] at hvalue
        cases hapi : entries.lookup "apiUrl" with
        | none => simp [JsonValue.get, hapi] at hurl
        | some api =>
          obtain ⟨apiUrl, rfl⟩ := JsonValue.isString_iff.mp (by simpa [JsonValue.get, hapi] using hurl)
          exact ⟨entries, capabilities, core, apiUrl, rfl, hvalue, hcore, hapi⟩
    · rintro ⟨entries, capabilities, core, apiUrl, rfl, hcaps, hcore, hapi⟩
      refine ⟨?_, ?_⟩
      · simp only [JsonValue.get, hcaps, Option.bind_some, JsonValue.asObject, hcore,
          Option.isSome_some]
      · simp only [JsonValue.get, hapi, Option.map_some, JsonValue.isString, Option.getD_some]

end

abbrev JmapProbeResult : Type := Except String (Option DiscoveryJmapSessionResource)

abbrev DiscoveryJmapWellKnown [IoHttpCrate] := DiscoveryHttpWalk

namespace DiscoveryJmapWellKnown

section
variable [UrlCrate]

def request (origin : Url) : HttpRequest :=
  (HttpRequest.get (origin.setPath "/.well-known/jmap")).header "Accept" "application/json"

def new [IoHttpCrate] (origin : Url) : DiscoveryJmapWellKnown := DiscoveryHttpWalk.new (request origin)

end

variable [IoHttpCrate] [SerdeCrate]

/-- Whether a terminal response with these challenge schemes is a session's. -/
def isValidated (response : HttpResponse) (authSchemes : List String) : Bool :=
  if 200 ≤ response.status ∧ response.status ≤ 299 then isSession response.body
  else if response.status = 401 then !authSchemes.isEmpty
  else false

def finish : WalkResult → JmapProbeResult
  | .ok none => .ok none
  | .ok (some output) =>
    let authSchemes := IoHttpCrate.challenges output.response
    if !isValidated output.response authSchemes then .ok none
    else .ok (some { url := output.url, authSchemes })
  | .error err => .error err

def resume (self : DiscoveryJmapWellKnown) (arg : Option Bytes) :
    Step DiscoveryYield DiscoveryJmapWellKnown JmapProbeResult :=
  (DiscoveryHttpWalk.resume self arg).mapResult finish

def program [UrlCrate] (origin : Url) : Protocol JmapProbeResult :=
  DiscoveryHttpWalk.program .session (request origin) >>= fun result => .pure (finish result)

variable [DomainCrate]

def toProc (self : DiscoveryJmapWellKnown) : ProtocolRun JmapProbeResult :=
  (DiscoveryHttpWalk.toProc .session self).andThen fun result => .pure (finish result)

theorem refines : Refines resume toProc := (DiscoveryHttpWalk.refines .session).mapResult finish

variable [UrlCrate]

theorem toProc_new (origin : Url) :
    (toProc (new origin)).resume none = drive exchanges (program origin) := by
  rw [toProc, program, new, Proc.resume_andThen, DiscoveryHttpWalk.toProc_new, drive_bind]

omit [DomainCrate] in
theorem always {asks : Exchange → Prop} {allowed : ∀ q : Exchange, q.Answer → Prop}
    {good : Url → Prop} (hw : WalksStay asks allowed good) {origin : Url}
    (h : good (origin.setPath "/.well-known/jmap")) :
    (program origin).Always asks allowed
      fun result => ∀ session, result = .ok (some session) → good session.url := by
  refine (DiscoveryHttpWalk.always .session hw h).bind fun result hresult => ?_
  rcases result with err | _ | output
  · simp [Prog.Always, finish]
  · simp [Prog.Always, finish]
  · simp only [Prog.Always, finish]
    split
    · simp
    · simpa using hresult output rfl

end DiscoveryJmapWellKnown
end PimDiscovery
