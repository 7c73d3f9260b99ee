import PimDiscovery.Interaction.Runs
import PimDiscovery.Rfc6764.FirstCandidate
import PimDiscovery.Whatwg.Reference

/-! Where the TXT candidate of a DAV resolve is: the path a record publishes is resolved as a URL
reference, which may leave the origin it was published for. -/

namespace PimDiscovery
open Interaction

/-- A URL of the origin: only the path, the query and the fragment are its own. -/
def Url.OnOrigin (url origin : Url) : Prop :=
  ∃ path query fragment, url = { origin with path, query, fragment }

/-- What `Url::join` makes of references to web URLs. -/
structure JoinsReferences [UrlCrate] : Prop where
  scheme : ∀ scheme rest url, scheme = "http" ∨ scheme = "https" →
    UrlCrate.parse (scheme ++ "://" ++ rest) = .ok url → url.scheme = scheme
  url : ∀ (base : Url) input text, base.scheme = "http" ∨ base.scheme = "https" →
    Whatwg.reference base.scheme input = .url text → UrlCrate.join base input = UrlCrate.parse text
  path : ∀ (base : Url) input text, base.scheme = "http" ∨ base.scheme = "https" →
    Whatwg.reference base.scheme input = .path text → ∃ path query fragment,
      UrlCrate.join base input = .ok { base with path, query, fragment } ∧
        (fragment.isSome ↔ '#' ∈ text.toList)
  hostless : ∀ (base : Url) input, base.scheme = "http" ∨ base.scheme = "https" →
    Whatwg.reference base.scheme input = .hostless → ∃ err, UrlCrate.join base input = .error err

/-- A path value that names no URL of its own, or one of the origin, or none that parses. -/
def StaysOnOrigin [UrlCrate] (origin : Url) (path : String) : Prop :=
  match Whatwg.reference origin.scheme path with
  | .path _ | .hostless => True
  | .url text => ∀ url, UrlCrate.parse text = .ok url → url.OnOrigin origin

/-- A path value that names no fragment either. -/
def NamesNoFragment [UrlCrate] (origin : Url) (path : String) : Prop :=
  match Whatwg.reference origin.scheme path with
  | .hostless => True
  | .path text => '#' ∉ text.toList
  | .url text => ∀ url, UrlCrate.parse text = .ok url → url.fragment = none

section
variable [UrlCrate]

theorem JoinsReferences.davOrigin_scheme (h : JoinsReferences) {domain : String}
    {record : Option (Bool × DiscoverySrvService)} {origin : Url}
    (horigin : davOrigin domain record = .ok origin) :
    origin.scheme = "http" ∨ origin.scheme = "https" := by
  have hparts : (originParts domain record).1 = "http" ∨ (originParts domain record).1 = "https" := by
    rcases record with _ | ⟨_ | _, record⟩
    · exact .inr rfl
    · exact .inl rfl
    · exact .inr rfl
  simp only [davOrigin, parseOrigin] at horigin
  split at horigin
  · rename_i url hurl
    obtain rfl := Except.ok.inj horigin
    simp only [String.append_assoc] at hurl
    rw [← String.append_assoc] at hurl
    rw [h.scheme _ _ _ hparts hurl]
    exact hparts
  · exact nomatch horigin

theorem JoinsReferences.onOrigin_iff (h : JoinsReferences) {origin : Url}
    (hscheme : origin.scheme = "http" ∨ origin.scheme = "https") (path : String) :
    (∀ root, UrlCrate.join origin path = .ok root → root.OnOrigin origin) ↔
      StaysOnOrigin origin path := by
  unfold StaysOnOrigin
  cases hreference : Whatwg.reference origin.scheme path with
  | url text =>
    rw [h.url origin path text hscheme hreference]
  | path text =>
    obtain ⟨path', query, fragment, hjoin, -⟩ := h.path origin path text hscheme hreference
    refine iff_of_true (fun root hroot => ?_) trivial
    rw [hjoin] at hroot
    exact ⟨path', query, fragment, (Except.ok.inj hroot).symm⟩
  | hostless =>
    obtain ⟨err, hjoin⟩ := h.hostless origin path hscheme hreference
    refine iff_of_true (fun root hroot => ?_) trivial
    rw [hjoin] at hroot
    cases hroot

theorem JoinsReferences.fragment_iff (h : JoinsReferences) {origin : Url}
    (hscheme : origin.scheme = "http" ∨ origin.scheme = "https") (path : String) :
    (∀ root, UrlCrate.join origin path = .ok root → root.fragment = none) ↔
      NamesNoFragment origin path := by
  unfold NamesNoFragment
  cases hreference : Whatwg.reference origin.scheme path with
  | url text =>
    rw [h.url origin path text hscheme hreference]
  | path text =>
    obtain ⟨path', query, fragment, hjoin, hfragment⟩ := h.path origin path text hscheme hreference
    rw [hjoin]
    simp only [Except.ok.injEq, forall_eq', ← hfragment]
    cases fragment <;> simp
  | hostless =>
    obtain ⟨err, hjoin⟩ := h.hostless origin path hscheme hreference
    refine iff_of_true (fun root hroot => ?_) trivial
    rw [hjoin] at hroot
    cases hroot

end

namespace DiscoveryDavResolve
variable [UrlCrate] [DomainCrate] [IoHttpCrate] (o : Network)

def NotTxtPath (q : Exchange) : Prop := ∀ request, q ≠ .hop .txtPath 0 request

omit [UrlCrate] [DomainCrate] [IoHttpCrate] in
theorem walk_notTxtPath {walk : WalkRole} (h : walk ≠ .txtPath) (request : HttpRequest) :
    (DiscoveryHttpWalk.program walk request).Always NotTxtPath (fun _ _ => True) fun _ => True := by
  apply (DiscoveryHttpWalk.programFrom_asks walk 0 request).weaken
  rintro q ⟨made, sent, rfl, -, -⟩ request' heq
  exact h (Exchange.hop.inj heq).1

omit [DomainCrate] in
theorem tryWellKnown_notTxtPath (service : DiscoveryDavService) (origin : Url) :
    ∀ q ∈ (tryWellKnown service origin).asked o, NotTxtPath q := by
  have horigin : (DiscoveryDavContext.program .origin origin).Always NotTxtPath (fun _ _ => True)
      fun result => ∀ root, result = .ok (some root) → True := by
    have hwalk := walk_notTxtPath (show WalkRole.origin ≠ .txtPath by decide) (propfind origin)
    refine hwalk.bind fun result _ => ?_
    exact fun _ _ => trivial
  have hprobe : (DiscoveryWellKnown.program origin service).Always NotTxtPath (fun _ _ => True)
      fun result => ∀ root, result = .ok (some root) → True := by
    unfold DiscoveryWellKnown.program
    split
    · rename_i request _
      have hwalk := walk_notTxtPath (show WalkRole.wellKnown ≠ .txtPath by decide)
        (propfind request.url)
      refine hwalk.bind fun result _ => ?_
      exact fun _ _ => trivial
    · exact fun _ _ => trivial
  exact (tryWellKnown_finds horigin hprobe).asked fun _ => trivial

omit [DomainCrate] in
theorem txtPath_asked_iff (service : DiscoveryDavService) (origin : Url) (path : String)
    (request : HttpRequest) :
    .hop .txtPath 0 request ∈ (afterTxt service origin (.ok (some path))).asked o ↔
      ∃ root, UrlCrate.join origin path = .ok root ∧ request = propfind root := by
  simp only [afterTxt]
  cases UrlCrate.join origin path with
  | error err => simp [Prog.asked]
  | ok root =>
    simp only [Prog.asked_bind, DiscoveryDavContext.program, List.mem_append, Except.ok.injEq,
      exists_eq_left']
    constructor
    · rintro ((hfirst | hnone) | hafter)
      · have hwalk : (DiscoveryHttpWalk.programFrom .txtPath 0 (propfind root)).Always _
          (fun _ _ => True) _ := DiscoveryHttpWalk.programFrom_asks .txtPath 0 (propfind root)
        obtain ⟨made, sent, heq, -, hsent⟩ := hwalk.asked (fun _ => trivial) _ hfirst
        obtain ⟨-, rfl, rfl⟩ := Exchange.hop.inj heq
        exact hsent rfl
      · cases hnone
      · exfalso
        revert hafter
        rcases Prog.eval o _ with err | _ | found
        · intro hq
          cases hq
        · exact fun hq => tryWellKnown_notTxtPath o service origin _ hq request rfl
        · intro hq
          cases hq
    · rintro rfl
      refine .inl (.inl ?_)
      rw [DiscoveryHttpWalk.program, DiscoveryHttpWalk.programFrom]
      exact List.mem_cons_self ..

theorem program_txtPath_iff {domain : String} {service : DiscoveryDavService} {resolver : Url}
    {secureOnly : Bool} {record : Bool × DiscoverySrvService} {origin : Url} {path : String}
    (hrecord : o.davRecord service (Text.trimMatches domain '.') resolver secureOnly = some record)
    (horigin : davOrigin (Text.trimMatches domain '.') (some record) = .ok origin)
    (hpath : o.davPath service (Text.trimMatches domain '.') resolver (some record) = .ok (some path))
    (request : HttpRequest) :
    .hop .txtPath 0 request ∈ (program domain service resolver secureOnly).asked o ↔
      ∃ root, UrlCrate.join origin path = .ok root ∧ request = propfind root := by
  have hlookup : (DiscoveryWebdavTxt.program
      (service.srvQname record.1 (Text.trimMatches domain '.')) resolver).eval o = .ok (some path) := by
    rw [← hpath, Network.davPath, DiscoveryWebdavTxt.program, Prog.eval_bind, DiscoveryDnsTxt.program,
      DnsLookup.eval_program]
    cases o.lookup .txt readTxt _ resolver <;> rfl
  rw [asked_program, hrecord, tryRecord, origin_eq, horigin]
  simp only [Except.mapError, Option.map_some, Prog.asked_bind, hlookup, List.mem_append]
  rw [← txtPath_asked_iff o service origin path request, txt_asked o hpath]
  constructor
  · rintro (hq | hq | hq)
    · obtain ⟨_, hq⟩ := webdavSrv_asked o _ _ _ hq
      cases hq
    · cases List.mem_singleton.mp hq
    · exact hq
  · exact fun hq => .inr (.inr hq)

/-- The first request of the TXT candidate is on the origin that the SRV record fixed exactly when the
published path names no other one, and then has nothing of it but a path and a query when it names no
fragment. -/
theorem txt_candidate_on_origin_iff (hcrate : JoinsReferences) (domain : String)
    (service : DiscoveryDavService) (resolver : Url) (secureOnly : Bool) (args : List (Option Bytes))
    {record : Bool × DiscoverySrvService} {origin : Url} {path : String}
    (hserves : Serves exchanges o (program domain service resolver secureOnly) args)
    (hrecord : o.davRecord service (Text.trimMatches domain '.') resolver secureOnly = some record)
    (horigin : davOrigin (Text.trimMatches domain '.') (some record) = .ok origin)
    (hpath : o.davPath service (Text.trimMatches domain '.') resolver (some record) =
      .ok (some path)) :
    ∃ turns result, inputs turns = args ∧
      Runs exchanges resume ((new domain service resolver).withSecureOnly secureOnly) turns result ∧
      ((∀ turn ∈ turns, ∀ request, turn.question = .hop .txtPath 0 request →
        request.url.OnOrigin origin) ↔ StaysOnOrigin origin path) ∧
      ((∀ turn ∈ turns, ∀ request, turn.question = .hop .txtPath 0 request →
        request.url.fragment = none) ↔ NamesNoFragment origin path) := by
  obtain ⟨turns, hreaches, hinputs, hquestions⟩ := hserves.reaches
  have hscheme := hcrate.davOrigin_scheme horigin
  have hcandidate : ∀ good : Url → Prop,
      (∀ turn ∈ turns, ∀ request, turn.question = .hop .txtPath 0 request → good request.url) ↔
        ∀ root, UrlCrate.join origin path = .ok root → good root := by
    intro good
    have hasked := program_txtPath_iff o hrecord horigin hpath
    rw [← hquestions] at hasked
    constructor
    · intro h root hroot
      obtain ⟨turn, hturn, hquestion⟩ := List.mem_map.mp ((hasked (propfind root)).mpr ⟨root, hroot, rfl⟩)
      exact h turn hturn _ hquestion
    · intro h turn hturn request hquestion
      obtain ⟨root, hroot, rfl⟩ := (hasked request).mp (List.mem_map.mpr ⟨turn, hturn, hquestion⟩)
      exact h root hroot
  refine ⟨turns, _, hinputs, refines.runs (toProc_new domain service resolver secureOnly none) hreaches,
    ?_, ?_⟩
  · exact (hcandidate fun url => url.OnOrigin origin).trans (hcrate.onOrigin_iff hscheme path)
  · exact (hcandidate fun url => url.fragment = none).trans (hcrate.fragment_iff hscheme path)

end DiscoveryDavResolve

namespace PlainUrl

def after (c : Char) (cs : List Char) : Option String :=
  match cs.dropWhile (· != c) with
  | [] => none
  | _ :: rest => some (String.ofList rest)

theorem isSome_after (c : Char) (cs : List Char) : (after c cs).isSome ↔ c ∈ cs := by
  unfold after
  induction cs with
  | nil => simp
  | cons d cs ih =>
    rw [List.dropWhile_cons]
    by_cases hd : d = c
    · simp [hd]
    · simp only [show (d != c) = true by simpa using hd, if_true, ih, List.mem_cons, Ne.symm hd,
        false_or]

def resolve (base : Url) (text : String) : Url :=
  let cs := text.toList.takeWhile (· != '#')
  let path := cs.takeWhile (· != '?')
  { base with
    path := if path.head? = some '/' then String.ofList path
      else String.ofList (base.path.toList.rdropWhile (· != '/') ++ path)
    query := after '?' cs
    fragment := after '#' text.toList }

end PlainUrl

@[reducible] def referenceUrl : UrlCrate :=
  { plainUrl with
    join := fun base input =>
      match Whatwg.reference base.scheme input with
      | .url text => PlainUrl.parse text
      | .path text => .ok (PlainUrl.resolve base text)
      | .hostless => .error "empty host" }

theorem referenceUrl_joins : letI := referenceUrl; JoinsReferences := by
  let _ := referenceUrl
  constructor
  · intro scheme rest url hscheme hurl
    have hcolon : ':' ∉ scheme.toList := by
      rcases hscheme with rfl | rfl <;> decide
    obtain ⟨parsed, hparsed, hsame⟩ := PlainUrl.parse_scheme hcolon rest
    rw [← String.append_assoc] at hparsed
    obtain rfl : parsed = url := Except.ok.inj (hparsed.symm.trans hurl)
    exact hsame
  · intro base input text _ hreference
    simp only [UrlCrate.join, hreference]
    rfl
  · intro base input text _ hreference
    simp only [UrlCrate.join, hreference]
    exact ⟨_, _, _, rfl, PlainUrl.isSome_after '#' text.toList⟩
  · intro base input _ hreference
    simp only [UrlCrate.join, hreference]
    exact ⟨_, rfl⟩

def publishedNetwork (path : String) : Network
  | .dns .srv name _ =>
    if name = "_caldavs._tcp.example.org" then
      .ok (PlainDns.srvAnswer "_caldavs._tcp.example.org." [(0, 1, 8443, "dav.example.org.")])
    else .ok (PlainDns.srvAnswer "" [])
  | .dns _ _ _ => .ok (PlainDns.txtAnswer "_caldavs._tcp.example.org." ["path=" ++ path])
  | .hop _ _ _ =>
    .ok { redirectUrl := none, response := { status := 207, headers := [], body := [] } }
  | .send _ => .failed "unexpected EOF"

def publishedReplies (path : String) : List (List (Option Bytes)) :=
  [[none, some (framed (PlainDns.srvAnswer "" []))],
    [none, some (framed
      (PlainDns.srvAnswer "_caldavs._tcp.example.org." [(0, 1, 8443, "dav.example.org.")]))],
    [none, some (framed (PlainDns.srvAnswer "" []))],
    [none, some (framed (PlainDns.srvAnswer "" []))],
    [none, some (framed (PlainDns.txtAnswer "_caldavs._tcp.example.org." ["path=" ++ path]))],
    [none, some (Text.bytes "HTTP/1.1 207 Multi-Status\r\n\r\n")]]

def publishedOrigin : Url := { exampleOrigin with host := some "dav.example.org", port := some 8443 }

namespace DiscoveryDavResolve

theorem published_path_on_origin :
    letI := referenceUrl
    letI := plainDns
    letI := plainHttp
    ∃ turns result, Runs exchanges resume
        ((new "example.org" .caldav exampleResolver).withSecureOnly true) turns result ∧
      ∀ turn ∈ turns, ∀ request, turn.question = .hop .txtPath 0 request →
        request.url.OnOrigin publishedOrigin := by
  let _ := referenceUrl
  let _ := plainDns
  let _ := plainHttp
  have hserves : serves exchanges (publishedNetwork "/dav/")
      (program "example.org" .caldav exampleResolver true) (publishedReplies "/dav/") = true := by
    decide +kernel
  have hrecord : (publishedNetwork "/dav/").davRecord .caldav (Text.trimMatches "example.org" '.')
      exampleResolver true =
        some (true, { host := "dav.example.org", port := 8443, priority := 0, weight := 1 }) := by
    decide +kernel
  have horigin : davOrigin (Text.trimMatches "example.org" '.')
      (some (true, { host := "dav.example.org", port := 8443, priority := 0, weight := 1 })) =
        .ok publishedOrigin := by
    decide +kernel
  have hpath : (publishedNetwork "/dav/").davPath .caldav (Text.trimMatches "example.org" '.')
      exampleResolver
      (some (true, { host := "dav.example.org", port := 8443, priority := 0, weight := 1 })) =
        .ok (some "/dav/") := by
    decide +kernel
  obtain ⟨turns, result, -, hruns, hon, -⟩ := txt_candidate_on_origin_iff (publishedNetwork "/dav/")
    referenceUrl_joins "example.org" .caldav exampleResolver true _ (serves_sound hserves) hrecord
    horigin hpath
  refine ⟨turns, result, hruns, hon.mpr ?_⟩
  have hreference : Whatwg.reference publishedOrigin.scheme "/dav/" = .path "/dav/" := by decide
  rw [StaysOnOrigin, hreference]
  trivial

/-- A path of two slashes sends the bootstrap request to the host it names, and the user to it. -/
theorem published_path_leaves_origin :
    letI := referenceUrl
    letI := plainDns
    letI := plainHttp
    let o := publishedNetwork "//evil.example/dav/"
    let strayed : Url := { exampleOrigin with host := some "evil.example", path := "/dav/" }
    Serves exchanges o (program "example.org" .caldav exampleResolver true)
      (publishedReplies "//evil.example/dav/").flatten ∧
    (o.davRecord .caldav "example.org" exampleResolver true).map (·.2.host) =
      some "dav.example.org" ∧
    .hop .txtPath 0 (propfind strayed) ∈
      (program "example.org" .caldav exampleResolver true).asked o ∧
    outcome resume ((new "example.org" .caldav exampleResolver).withSecureOnly true)
      (none :: (publishedReplies "//evil.example/dav/").flatten) = some (.ok strayed) := by
  let _ := referenceUrl
  let _ := plainDns
  let _ := plainHttp
  have hserves : serves exchanges (publishedNetwork "//evil.example/dav/")
      (program "example.org" .caldav exampleResolver true)
      (publishedReplies "//evil.example/dav/") = true := by
    decide +kernel
  exact ⟨serves_sound hserves, by decide +kernel, by decide +kernel, by decide +kernel⟩

end DiscoveryDavResolve
end PimDiscovery
