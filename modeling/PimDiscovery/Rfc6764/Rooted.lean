import PimDiscovery.Rfc6764.FirstCandidate

/-! The context roots a run finds: each is where a `PROPFIND` walk of that run ended on a DAV server. -/

namespace PimDiscovery
open Interaction

section
variable [IoHttpCrate]

/-- A `PROPFIND` walk of a run from `start` ended on `root`, which answered as a DAV server; a walk from
a well-known URL was redirected at least once. -/
def RootWalk (heard : Hearing) (walk : WalkRole) (start root : Url) : Prop :=
  ∃ output, DiscoveryHttpWalk.Walked heard walk 0 (propfind start) output ∧ output.url = root ∧
    (walk = .wellKnown → 0 < output.hops) ∧ (output.response.status = 207 ∨
      output.response.status = 401 ∧ IoHttpCrate.challenges output.response ≠ [])

inductive DavStart [UrlCrate] (service : DiscoveryDavService) (origin : Url) : WalkRole → Url → Prop where
  | txtPath {path : String} {start : Url} (h : UrlCrate.join origin path = .ok start) :
      DavStart service origin .txtPath start
  | wellKnown {request : HttpRequest}
      (h : IoHttpCrate.prepareRequest (UrlCrate.asStr origin) service.serviceName = .ok request) :
      DavStart service origin .wellKnown request.url
  | origin : DavStart service origin .origin origin

theorem DiscoveryDavContext.program_rooted {heard : Hearing} {walk : WalkRole}
    (hwalk : walk ≠ .wellKnown) (start : Url) :
    (program walk start).Always (fun _ => True) heard fun result =>
      ∀ root, result = .ok (some root) → RootWalk heard walk start root := by
  refine (DiscoveryHttpWalk.program_walked walk heard (propfind start)).bind fun result hresult => ?_
  intro root hroot
  rcases result with err | _ | output
  · exact nomatch hroot
  · exact nomatch hroot
  · unfold finish at hroot
    simp only at hroot
    split at hroot
    · rename_i hcontext
      obtain rfl := Option.some.inj (Except.ok.inj hroot)
      refine ⟨output, hresult output rfl, rfl, fun h => absurd h hwalk, ?_⟩
      exact (isContextRoot_iff output.response).mp hcontext
    · exact nomatch hroot

variable [UrlCrate]

theorem DiscoveryWellKnown.program_rooted {heard : Hearing} (origin : Url)
    (service : DiscoveryDavService) :
    (program origin service).Always (fun _ => True) heard fun result =>
      ∀ root, result = .ok (some root) →
        ∃ start, DavStart service origin .wellKnown start ∧ RootWalk heard .wellKnown start root := by
  unfold program
  cases hrequest : IoHttpCrate.prepareRequest (UrlCrate.asStr origin) service.serviceName with
  | error err => exact fun _ => nofun
  | ok request =>
    have hwalked := DiscoveryHttpWalk.program_walked .wellKnown heard (propfind request.url)
    refine hwalked.bind fun result hresult => ?_
    intro root hroot
    rcases result with err | _ | output
    · exact nomatch hroot
    · exact nomatch hroot
    · unfold finish at hroot
      simp only at hroot
      split at hroot
      · exact nomatch hroot
      · rename_i hhops
        split at hroot
        · exact nomatch hroot
        · rename_i hcontext
          obtain rfl := Option.some.inj (Except.ok.inj hroot)
          refine ⟨request.url, .wellKnown hrequest, output, hresult output rfl, rfl, ?_, ?_⟩
          · exact fun _ => Nat.pos_of_ne_zero hhops
          · exact (isContextRoot_iff output.response).mp (by simpa using hcontext)

namespace DiscoveryDavResolve
variable [DomainCrate]

/-- A root of a service that a resolve found: on the origin that some record, or none, fixes. -/
def Resolved (heard : Hearing) (service : DiscoveryDavService) (domain : String) (root : Url) : Prop :=
  ∃ record found walk start, origin (Text.trimMatches domain '.') record = .ok found ∧
    DavStart service found walk start ∧ RootWalk heard walk start root

theorem program_rooted {heard : Hearing} (domain : String) (service : DiscoveryDavService)
    (resolver : Url) (secureOnly : Bool) :
    (program domain service resolver secureOnly).Always (fun _ => True) heard fun result =>
      ∀ root, result = .ok root → Resolved heard service domain root := by
  have hcontext : ∀ {record found walk start}, origin (Text.trimMatches domain '.') record = .ok found →
      DavStart service found walk start → walk ≠ .wellKnown →
      (DiscoveryDavContext.program walk start).Always (fun _ => True) heard fun result =>
        ∀ root, result = .ok (some root) → Resolved heard service domain root := by
    intro record found walk start horigin hstart hwalk
    refine (DiscoveryDavContext.program_rooted hwalk start).mono fun result hresult => ?_
    exact fun root hroot => ⟨record, found, walk, start, horigin, hstart, hresult root hroot⟩
  have hrecord : ∀ record,
      (tryRecord service (Text.trimMatches domain '.') resolver record).Always (fun _ => True) heard
        fun result => ∀ root, result = .ok root → Resolved heard service domain root := by
    intro record
    unfold tryRecord
    cases horigin : origin (Text.trimMatches domain '.') record with
    | error err => exact fun _ => nofun
    | ok found =>
      have hprobe : (DiscoveryWellKnown.program found service).Always (fun _ => True) heard
          fun result => ∀ root, result = .ok (some root) → Resolved heard service domain root := by
        refine (DiscoveryWellKnown.program_rooted found service).mono fun result hresult => ?_
        intro root hroot
        obtain ⟨start, hstart, hwalk⟩ := hresult root hroot
        exact ⟨record, found, .wellKnown, start, horigin, hstart, hwalk⟩
      have htry := hcontext horigin .origin nofun
      -- Only a record has a TXT candidate; without one the well-known probe goes first.
      cases record.map fun record => service.srvQname record.1 (Text.trimMatches domain '.') with
      | none => exact tryWellKnown_finds htry hprobe
      | some qname =>
        refine (Prog.Always.trivial (DiscoveryWebdavTxt.program qname resolver)).bind fun txt _ => ?_
        apply afterTxt_finds htry hprobe
        intro path _ url hurl
        exact hcontext horigin (.txtPath hurl) nofun
  refine (Prog.Always.trivial (DiscoveryWebdavSrv.program _ resolver)).bind fun report _ => ?_
  cases report with
  | error err => exact hrecord none
  | ok report => exact hrecord _

end DiscoveryDavResolve
end
end PimDiscovery
