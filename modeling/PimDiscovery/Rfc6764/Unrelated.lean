import PimDiscovery.Rfc6764.FirstCandidate

/-! What the lookups of the other DAV service do to the resolve of one: a failure among them hides the
records that were found. -/

namespace PimDiscovery
open Interaction

def DiscoveryDavService.other : DiscoveryDavService → DiscoveryDavService
  | caldav => carddav
  | carddav => caldav

section
variable [DomainCrate]

def Network.OtherFails (o : Network) (service : DiscoveryDavService) (domain : String)
    (resolver : Url) : Prop :=
  ∃ tls err, o.lookup .srv readSrv (service.other.srvQname tls domain) resolver = .error err

def Network.ownRecord (o : Network) (service : DiscoveryDavService) (domain : String)
    (resolver : Url) (secureOnly : Bool) : Option (Bool × DiscoverySrvService) :=
  match o.lookup .srv readSrv (service.srvQname false domain) resolver,
      o.lookup .srv readSrv (service.srvQname true domain) resolver with
  | .ok plain, .ok tls =>
    DiscoveryDavResolve.record secureOnly (tls.head?.map intoService) (plain.head?.map intoService)
  | _, _ => none

def SameButOther (service : DiscoveryDavService) (domain : String) (resolver : Url)
    (o o' : Network) : Prop :=
  ∀ q, (∀ tls, q ≠ .dns .srv (service.other.srvQname tls domain) resolver) → o q = o' q

def SameSrv (resolver : Url) (o o' : Network) : Prop :=
  ∀ name, o (.dns .srv name resolver) = o' (.dns .srv name resolver)

omit [DomainCrate] in
theorem srvQname_other (service : DiscoveryDavService) (tls tls' : Bool) (domain : String) :
    service.srvQname tls domain ≠ service.other.srvQname tls' domain := by
  intro h
  have htoList := congrArg String.toList h
  cases service <;> cases tls <;> cases tls' <;>
    simp [DiscoveryDavService.srvQname, DiscoveryDavService.other] at htoList

theorem Network.lookup_congr {ρ : Type} {o o' : Network} {qtype : QType} {name : String}
    {resolver : Url} (h : o (.dns qtype name resolver) = o' (.dns qtype name resolver))
    (read : String → List MessageItem → ρ) :
    o.lookup qtype read name resolver = o'.lookup qtype read name resolver := by
  unfold lookup dns
  rw [h]

def webdavReport (plainCal tlsCal plainCard tlsCard : Except DnsLookupError (List Srv)) :
    WebdavSrvResult :=
  match plainCal, tlsCal, plainCard, tlsCard with
  | .error err, _, _, _ => .error ("_caldav", err)
  | .ok _, .error err, _, _ => .error ("_caldavs", err)
  | .ok _, .ok _, .error err, _ => .error ("_carddav", err)
  | .ok _, .ok _, .ok _, .error err => .error ("_carddavs", err)
  | .ok plainCal, .ok tlsCal, .ok plainCard, .ok tlsCard => .ok
      { caldav := plainCal.head?.map intoService, caldavs := tlsCal.head?.map intoService
        carddav := plainCard.head?.map intoService, carddavs := tlsCard.head?.map intoService }

theorem DiscoveryWebdavSrv.eval_lookups (o : Network) (domain : String) (resolver : Url) :
    (program domain resolver).eval o = webdavReport
      (o.lookup .srv readSrv (DiscoveryDavService.caldav.srvQname false (Text.trimMatches domain '.')) resolver)
      (o.lookup .srv readSrv (DiscoveryDavService.caldav.srvQname true (Text.trimMatches domain '.')) resolver)
      (o.lookup .srv readSrv (DiscoveryDavService.carddav.srvQname false (Text.trimMatches domain '.')) resolver)
      (o.lookup .srv readSrv (DiscoveryDavService.carddav.srvQname true (Text.trimMatches domain '.')) resolver) := by
  have hcal : ∀ domain, caldav.qname domain = DiscoveryDavService.caldav.srvQname false domain :=
    fun _ => rfl
  have hcals : ∀ domain, caldavs.qname domain = DiscoveryDavService.caldav.srvQname true domain :=
    fun _ => rfl
  have hcard : ∀ domain, carddav.qname domain = DiscoveryDavService.carddav.srvQname false domain :=
    fun _ => rfl
  have hcards : ∀ domain, carddavs.qname domain = DiscoveryDavService.carddav.srvQname true domain :=
    fun _ => rfl
  rw [program, SrvSeries.eval_program_lookup, hcal]
  cases o.lookup .srv readSrv (DiscoveryDavService.caldav.srvQname false _) resolver with
  | error err => rfl
  | ok plainCal =>
    rw [SrvSeries.continueWith, SrvSeries.eval_program_lookup, hcals]
    cases o.lookup .srv readSrv (DiscoveryDavService.caldav.srvQname true _) resolver with
    | error err => rfl
    | ok tlsCal =>
      rw [SrvSeries.continueWith, SrvSeries.eval_program_lookup, hcard]
      cases o.lookup .srv readSrv (DiscoveryDavService.carddav.srvQname false _) resolver with
      | error err => rfl
      | ok plainCard =>
        rw [SrvSeries.continueWith, SrvSeries.eval_program_lookup, hcards]
        cases o.lookup .srv readSrv (DiscoveryDavService.carddav.srvQname true _) resolver <;> rfl

/-- A failure of the other service's lookups discards the record. -/
theorem Network.davRecord_otherFails {o : Network} {service : DiscoveryDavService} {domain : String}
    {resolver : Url} (h : o.OtherFails service (Text.trimMatches domain '.') resolver)
    (secureOnly : Bool) : o.davRecord service domain resolver secureOnly = none := by
  obtain ⟨tls, err, herr⟩ := h
  have hreport : ∃ e, (DiscoveryWebdavSrv.program domain resolver).eval o = .error e := by
    rw [DiscoveryWebdavSrv.eval_lookups]
    unfold webdavReport
    split
    · exact ⟨_, rfl⟩
    · exact ⟨_, rfl⟩
    · exact ⟨_, rfl⟩
    · exact ⟨_, rfl⟩
    · rename_i hplainCal htlsCal hplainCard htlsCard
      cases service <;> cases tls <;> simp_all [DiscoveryDavService.other]
  obtain ⟨e, he⟩ := hreport
  rw [davRecord, he]

theorem Network.davRecord_eq {o : Network} {service : DiscoveryDavService} {domain : String}
    {resolver : Url} (h : ¬ o.OtherFails service (Text.trimMatches domain '.') resolver)
    (secureOnly : Bool) : o.davRecord service domain resolver secureOnly =
      o.ownRecord service (Text.trimMatches domain '.') resolver secureOnly := by
  have hother : ∀ tls, ∃ records, o.lookup .srv readSrv
      (service.other.srvQname tls (Text.trimMatches domain '.')) resolver = .ok records := by
    intro tls
    cases hlookup : o.lookup .srv readSrv
        (service.other.srvQname tls (Text.trimMatches domain '.')) resolver with
    | error err => exact absurd ⟨tls, err, hlookup⟩ h
    | ok records => exact ⟨records, rfl⟩
  obtain ⟨plain, hplain⟩ := hother false
  obtain ⟨tls, htls⟩ := hother true
  rw [davRecord, ownRecord, DiscoveryWebdavSrv.eval_lookups]
  cases service with
  | caldav =>
    rw [show DiscoveryDavService.other .caldav = .carddav from rfl] at hplain htls
    rw [hplain, htls]
    cases o.lookup .srv readSrv (DiscoveryDavService.caldav.srvQname false _) resolver with
    | error err => rfl
    | ok records =>
      cases o.lookup .srv readSrv (DiscoveryDavService.caldav.srvQname true _) resolver <;> rfl
  | carddav =>
    rw [show DiscoveryDavService.other .carddav = .caldav from rfl] at hplain htls
    rw [hplain, htls]
    cases o.lookup .srv readSrv (DiscoveryDavService.carddav.srvQname false _) resolver with
    | error err => rfl
    | ok records =>
      cases o.lookup .srv readSrv (DiscoveryDavService.carddav.srvQname true _) resolver <;> rfl

theorem Network.ownRecord_congr {o o' : Network} {service : DiscoveryDavService} {domain : String}
    {resolver : Url} (h : ∀ tls, o (.dns .srv (service.srvQname tls domain) resolver) =
      o' (.dns .srv (service.srvQname tls domain) resolver)) (secureOnly : Bool) :
    o.ownRecord service domain resolver secureOnly =
      o'.ownRecord service domain resolver secureOnly := by
  unfold ownRecord
  rw [Network.lookup_congr (h false), Network.lookup_congr (h true)]

theorem Network.otherFails_congr {o o' : Network} {service : DiscoveryDavService} {domain : String}
    {resolver : Url} (h : SameSrv resolver o o') :
    o.OtherFails service domain resolver ↔ o'.OtherFails service domain resolver := by
  unfold OtherFails
  simp only [Network.lookup_congr (h _)]

/-- The record of a run: none where the other service's lookups fail, else the service's own. -/
theorem Network.davRecord_cases (o : Network) (service : DiscoveryDavService) (domain : String)
    (resolver : Url) (secureOnly : Bool) :
    o.OtherFails service (Text.trimMatches domain '.') resolver ∧
        o.davRecord service (Text.trimMatches domain '.') resolver secureOnly = none ∨
      ¬ o.OtherFails service (Text.trimMatches domain '.') resolver ∧
        o.davRecord service (Text.trimMatches domain '.') resolver secureOnly =
          o.ownRecord service (Text.trimMatches domain '.') resolver secureOnly := by
  have htrim := Text.trimMatches_trimMatches domain '.'
  by_cases h : o.OtherFails service (Text.trimMatches domain '.') resolver
  · refine .inl ⟨h, ?_⟩
    apply Network.davRecord_otherFails
    rwa [htrim]
  · refine .inr ⟨h, ?_⟩
    have heq : o.davRecord service (Text.trimMatches domain '.') resolver secureOnly =
        o.ownRecord service (Text.trimMatches (Text.trimMatches domain '.') '.') resolver secureOnly :=
      Network.davRecord_eq (by rwa [htrim]) secureOnly
    rwa [htrim] at heq

theorem Network.ownRecord_agree {o₁ o₁' o₂' : Network} {service : DiscoveryDavService}
    {domain : String} {resolver : Url} (h₁ : SameSrv resolver o₁ o₁')
    (h' : SameButOther service domain resolver o₁' o₂') (secureOnly : Bool) :
    o₁'.ownRecord service domain resolver secureOnly =
        o₁.ownRecord service domain resolver secureOnly ∧
      o₂'.ownRecord service domain resolver secureOnly =
        o₁.ownRecord service domain resolver secureOnly := by
  have hfirst := Network.ownRecord_congr
    (fun tls => (h₁ (service.srvQname tls domain)).symm) secureOnly
  refine ⟨hfirst, ?_⟩
  rw [← hfirst]
  apply Network.ownRecord_congr
  intro tls
  refine (h' _ fun tls' heq => ?_).symm
  simp only [Exchange.dns.injEq, true_and, and_true] at heq
  exact srvQname_other service tls tls' _ heq

end

section
variable [UrlCrate] [DomainCrate] [IoHttpCrate]

namespace DiscoveryDavResolve

theorem tryRecord_noSrv (o : Network) (service : DiscoveryDavService)
    (domain : String) (resolver : Url) (record : Option (Bool × DiscoverySrvService)) :
    ∀ q ∈ (tryRecord service domain resolver record).asked o, ∀ name r, q ≠ .dns .srv name r := by
  intro q hq name r
  rw [tryRecord] at hq
  cases horigin : origin domain record with
  | error err => simp [horigin, Prog.asked] at hq
  | ok origin =>
    rw [horigin] at hq
    cases record with
    | none => exact tryWellKnown_noDns o service origin q hq .srv name r
    | some record =>
      simp only [Option.map_some, Prog.asked_bind, List.mem_append] at hq
      rcases hq with hq | hq
      · rw [DiscoveryWebdavTxt.program, Prog.asked_bind, Prog.asked, List.append_nil] at hq
        rw [DnsLookup.asked_program o .txt readTxt _ _ q hq]
        simp
      · exact afterTxt_noDns o service origin _ q hq .srv name r

end DiscoveryDavResolve

def Network.withoutTxt (o : Network) : Network
  | .dns .txt _ _ => .error .eof
  | q => o q

omit [UrlCrate] [DomainCrate] [IoHttpCrate] in
theorem SameButOther.withoutTxt {service : DiscoveryDavService} {domain : String} {resolver : Url}
    {o o' : Network} (h : SameButOther service domain resolver o o') :
    SameButOther service domain resolver o.withoutTxt o'.withoutTxt := by
  intro q hq
  rcases q with ⟨qtype, name, r⟩ | ⟨walk, hops, request⟩ | request
  · cases qtype with
    | txt => rfl
    | a => exact h _ hq
    | mx => exact h _ hq
    | soa => exact h _ hq
    | srv => exact h _ hq
  · exact h _ hq
  · exact h _ hq

namespace DiscoveryDavResolve

theorem eval_withoutTxt_ne {o o' : Network} {service : DiscoveryDavService} {domain : String}
    {resolver : Url} {fixed : Bool × DiscoverySrvService} {origin : Url}
    (hfixed : davOrigin domain (some fixed) = .ok origin)
    (hnone : davOrigin domain none = .ok origin) :
    (tryRecord service domain resolver (some fixed)).eval o.withoutTxt ≠
      (tryRecord service domain resolver none).eval o' := by
  have htxt : ∃ err, o.withoutTxt.txtStage service domain resolver (some fixed) origin =
      .error (.txt err) := by
    obtain ⟨tls, record⟩ := fixed
    rw [Network.txtStage, Network.davPath]
    simp only [Network.lookup]
    cases queryMessage .txt (service.srvQname tls domain) with
    | error err => exact ⟨_, rfl⟩
    | ok message => exact ⟨_, rfl⟩
  obtain ⟨err, herr⟩ := htxt
  rw [eval_tryRecord, eval_tryRecord, hfixed, hnone]
  -- Without a record no TXT question is asked, so no stage fails with a TXT error.
  have hwell : ∀ e, o'.wellKnownStage service origin ≠ .error (.txt e) := by
    intro e
    unfold Network.wellKnownStage
    cases IoHttpCrate.prepareRequest (UrlCrate.asStr origin) service.serviceName with
    | error err => simp
    | ok request =>
      simp only
      cases candidateResult true (o'.walk .wellKnown (propfind request.url)) <;> simp [Except.mapError]
  have hlast : ∀ e, o'.originStage origin ≠ .error (.txt e) := by
    intro e
    unfold Network.originStage
    cases candidateResult false (o'.walk .origin (propfind origin)) <;> simp [Except.mapError]
  have hnotxt : o'.txtStage service domain resolver none origin = .ok none := rfl
  simp only [Network.davStages, herr, hnotxt, firstDecisive]
  rcases hw : o'.wellKnownStage service origin with e | _ | root
  · rintro ⟨⟩
    exact hwell _ hw
  · rcases hl : o'.originStage origin with e | _ | root
    · rintro ⟨⟩
      exact hlast _ hl
    · simp [firstDecisive]
    · simp [firstDecisive]
  · simp [firstDecisive]

/-- A discarded record goes unnoticed only where neither it nor the domain makes an origin. -/
theorem parse_of_discarded {o o' : Network} {service : DiscoveryDavService} {domain : String}
    {resolver : Url} {fixed : Bool × DiscoverySrvService}
    (horigin : davOrigin domain (some fixed) = davOrigin domain none)
    (heval : (tryRecord service domain resolver (some fixed)).eval o.withoutTxt =
      (tryRecord service domain resolver none).eval o') :
    ∃ err, davOrigin domain (some fixed) = .error err ∧ davOrigin domain none = .error err := by
  cases hnone : davOrigin domain none with
  | error err => exact ⟨err, horigin.trans hnone, rfl⟩
  | ok origin => exact absurd heval (eval_withoutTxt_ne (horigin.trans hnone) hnone)

theorem eval_of_record {o₁ o₂ : Network} {domain : String} {service : DiscoveryDavService}
    {resolver : Url} {secureOnly : Bool}
    (h : SameButOther service (Text.trimMatches domain '.') resolver o₁ o₂)
    (hrecord : o₁.davRecord service (Text.trimMatches domain '.') resolver secureOnly =
      o₂.davRecord service (Text.trimMatches domain '.') resolver secureOnly) :
    (program domain service resolver secureOnly).eval o₁ =
      (program domain service resolver secureOnly).eval o₂ := by
  rw [eval_program, eval_program, ← hrecord]
  apply Prog.eval_congr
  intro q hq
  exact h q fun tls => tryRecord_noSrv o₁ _ _ _ _ q hq _ _

theorem same_of_discarded {o o' : Network} {domain : String} {service : DiscoveryDavService}
    {resolver : Url} {secureOnly : Bool}
    (h : SameButOther service (Text.trimMatches domain '.') resolver o o')
    (hnone : o.davRecord service (Text.trimMatches domain '.') resolver secureOnly = none)
    (hparse : ∀ fixed,
      o'.davRecord service (Text.trimMatches domain '.') resolver secureOnly = some fixed →
      ∃ err, davOrigin (Text.trimMatches domain '.') (some fixed) = .error err ∧
        davOrigin (Text.trimMatches domain '.') none = .error err) :
    davOrigin (Text.trimMatches domain '.')
        (o.davRecord service (Text.trimMatches domain '.') resolver secureOnly) =
      davOrigin (Text.trimMatches domain '.')
        (o'.davRecord service (Text.trimMatches domain '.') resolver secureOnly) ∧
    (program domain service resolver secureOnly).eval o =
      (program domain service resolver secureOnly).eval o' := by
  cases hrecord : o'.davRecord service (Text.trimMatches domain '.') resolver secureOnly with
  | none => exact ⟨by rw [hnone], eval_of_record h (hnone.trans hrecord.symm)⟩
  | some fixed =>
    obtain ⟨err, hfixed, horigin⟩ := hparse fixed hrecord
    refine ⟨by rw [hnone, hfixed, horigin], ?_⟩
    rw [eval_program, eval_program, eval_tryRecord, eval_tryRecord, hnone, hrecord, hfixed, horigin]

/-- Two resolves whose lookups for the service itself and whose HTTP responses are the same build the
same origin and end alike, whatever their TXT and HTTP answers, exactly when the other service's
lookups fail in both or in neither, or the service itself has no record to discard, or the record's
origin and the domain's own fail to parse alike. -/
theorem unrelated_lookups_iff (domain : String) (service : DiscoveryDavService) (resolver : Url)
    (secureOnly : Bool) (o₁ o₂ : Network)
    (h : SameButOther service (Text.trimMatches domain '.') resolver o₁ o₂) :
    (∀ o args, Serves exchanges o (program domain service resolver secureOnly) args →
      outcome resume ((new domain service resolver).withSecureOnly secureOnly) (none :: args) =
        some ((program domain service resolver secureOnly).eval o)) ∧
    ((∀ o₁' o₂', SameSrv resolver o₁ o₁' → SameSrv resolver o₂ o₂' →
        SameButOther service (Text.trimMatches domain '.') resolver o₁' o₂' →
        davOrigin (Text.trimMatches domain '.')
            (o₁'.davRecord service (Text.trimMatches domain '.') resolver secureOnly) =
          davOrigin (Text.trimMatches domain '.')
            (o₂'.davRecord service (Text.trimMatches domain '.') resolver secureOnly) ∧
        (program domain service resolver secureOnly).eval o₁' =
          (program domain service resolver secureOnly).eval o₂') ↔
      ∀ fixed, o₁.ownRecord service (Text.trimMatches domain '.') resolver secureOnly = some fixed →
        (o₁.OtherFails service (Text.trimMatches domain '.') resolver ↔
          o₂.OtherFails service (Text.trimMatches domain '.') resolver) ∨
        ∃ err, davOrigin (Text.trimMatches domain '.') (some fixed) = .error err ∧
          davOrigin (Text.trimMatches domain '.') none = .error err) := by
  refine ⟨fun o args hserves => ?_, fun hsame fixed hfixed => ?_, fun hcond o₁' o₂' h₁ h₂ h' => ?_⟩
  · exact refines.outcome_eq (toProc_new domain service resolver secureOnly none) hserves
  · -- failing TXT lookups tell a run with the record from one without it
    have h₁ : SameSrv resolver o₁ o₁.withoutTxt := fun _ => rfl
    have h₂ : SameSrv resolver o₂ o₂.withoutTxt := fun _ => rfl
    have h' := h.withoutTxt
    obtain ⟨horigin, heval⟩ := hsame _ _ h₁ h₂ h'
    obtain ⟨hown₁, hown₂⟩ := Network.ownRecord_agree h₁ h' secureOnly
    rw [eval_program, eval_program] at heval
    rw [Network.otherFails_congr h₁, Network.otherFails_congr h₂]
    obtain ⟨hf₁, hr₁⟩ | ⟨hf₁, hr₁⟩ :=
      o₁.withoutTxt.davRecord_cases service domain resolver secureOnly <;>
    obtain ⟨hf₂, hr₂⟩ | ⟨hf₂, hr₂⟩ :=
      o₂.withoutTxt.davRecord_cases service domain resolver secureOnly
    · exact .inl (iff_of_true hf₁ hf₂)
    · rw [hr₁, hr₂, hown₂, hfixed] at horigin heval
      exact .inr (parse_of_discarded horigin.symm heval.symm)
    · rw [hr₁, hr₂, hown₁, hfixed] at horigin heval
      exact .inr (parse_of_discarded horigin heval)
    · exact .inl (iff_of_false hf₁ hf₂)
  -- Both runs keep the record, or both discard it, or the one that keeps it cannot use it.
  · obtain ⟨hown₁, hown₂⟩ := Network.ownRecord_agree h₁ h' secureOnly
    rw [Network.otherFails_congr h₁, Network.otherFails_congr h₂] at hcond
    obtain ⟨hf₁, hr₁⟩ | ⟨hf₁, hr₁⟩ := o₁'.davRecord_cases service domain resolver secureOnly <;>
    obtain ⟨hf₂, hr₂⟩ | ⟨hf₂, hr₂⟩ := o₂'.davRecord_cases service domain resolver secureOnly
    · have hrecord := hr₁.trans hr₂.symm
      exact ⟨congrArg _ hrecord, eval_of_record h' hrecord⟩
    · refine same_of_discarded h' hr₁ fun fixed hfixed => ?_
      rw [hr₂, hown₂] at hfixed
      exact (hcond fixed hfixed).resolve_left fun hiff => hf₂ (hiff.mp hf₁)
    · have hsame := same_of_discarded (fun q hq => (h' q hq).symm) hr₂ fun fixed hfixed => by
        rw [hr₁, hown₁] at hfixed
        exact (hcond fixed hfixed).resolve_left fun hiff => hf₁ (hiff.mpr hf₂)
      exact ⟨hsame.1.symm, hsame.2.symm⟩
    · have hrecord := (hr₁.trans hown₁).trans (hr₂.trans hown₂).symm
      exact ⟨congrArg _ hrecord, eval_of_record h' hrecord⟩

end DiscoveryDavResolve
end
def foundSrv (cardDav : Except DiscoveryDnsExchangeError Bytes) (name : String) (resolver : Url) :
    Except DiscoveryDnsExchangeError Bytes :=
  if name = "_caldavs._tcp.example.org" then
    .ok (PlainDns.srvAnswer "_caldavs._tcp.example.org." [(0, 1, 8443, "dav.example.org.")])
  else if name = "_carddav._tcp.example.org" ∧ resolver = exampleResolver then cardDav
  else .ok (PlainDns.srvAnswer "" [])

def foundNetwork (cardDav : Except DiscoveryDnsExchangeError Bytes) : Network
  | .dns .srv name resolver => foundSrv cardDav name resolver
  | .dns _ _ _ => .ok (PlainDns.srvAnswer "" [])
  | .hop .origin _ _ =>
    .ok { redirectUrl := none, response := { status := 207, headers := [], body := [] } }
  | .hop _ _ _ =>
    .ok { redirectUrl := none, response := { status := 404, headers := [], body := [] } }
  | .send _ => .failed "unexpected EOF"

def foundReplies (others : List Bytes) : List (List (Option Bytes)) :=
  [[none, some (framed (PlainDns.srvAnswer "" []))],
    [none, some (framed
      (PlainDns.srvAnswer "_caldavs._tcp.example.org." [(0, 1, 8443, "dav.example.org.")]))]] ++
    others.map fun reply => [none, some reply]

def foundOrigin : Url := { exampleOrigin with host := some "dav.example.org", port := some 8443 }

def foundReadable : List Bytes :=
  List.replicate 3 (framed (PlainDns.srvAnswer "" [])) ++
    ["HTTP/1.1 404 Not Found\r\n\r\n", "HTTP/1.1 207 Multi-Status\r\n\r\n"].map Text.bytes

def foundCut : List Bytes :=
  [] :: ["HTTP/1.1 404 Not Found\r\n\r\n", "HTTP/1.1 207 Multi-Status\r\n\r\n"].map Text.bytes

theorem foundNetwork_sameButOther (a b : Except DiscoveryDnsExchangeError Bytes) :
    SameButOther .caldav "example.org" exampleResolver (foundNetwork a) (foundNetwork b) := by
  intro q hq
  rcases q with ⟨qtype, name, resolver⟩ | ⟨walk, hops, request⟩ | request
  · cases qtype with
    | srv =>
      have hother : ¬ (name = "_carddav._tcp.example.org" ∧ resolver = exampleResolver) := by
        rintro ⟨rfl, rfl⟩
        exact hq false rfl
      show foundSrv a name resolver = foundSrv b name resolver
      rw [foundSrv, foundSrv, if_neg hother, if_neg hother]
    | a => rfl
    | mx => rfl
    | soa => rfl
    | txt => rfl
  · cases walk <;> rfl
  · rfl

namespace DiscoveryDavResolve

/-- A CardDAV lookup that is cut off moves the CalDAV resolve off the record that was found. -/
theorem cut_lookup_moves_origin :
    letI := plainUrl
    letI := plainDns
    letI := plainHttp
    SameButOther .caldav "example.org" exampleResolver
      (foundNetwork (.ok (PlainDns.srvAnswer "" []))) (foundNetwork (.error .eof)) ∧
    Serves exchanges (foundNetwork (.ok (PlainDns.srvAnswer "" [])))
      (program "example.org" .caldav exampleResolver true) (foundReplies foundReadable).flatten ∧
    Serves exchanges (foundNetwork (.error .eof))
      (program "example.org" .caldav exampleResolver true) (foundReplies foundCut).flatten ∧
    outcome resume ((new "example.org" .caldav exampleResolver).withSecureOnly true)
      (none :: (foundReplies foundReadable).flatten) = some (.ok foundOrigin) ∧
    outcome resume ((new "example.org" .caldav exampleResolver).withSecureOnly true)
      (none :: (foundReplies foundCut).flatten) = some (.ok exampleOrigin) := by
  let _ := plainUrl
  let _ := plainDns
  let _ := plainHttp
  have hfound : serves exchanges (foundNetwork (.ok (PlainDns.srvAnswer "" [])))
      (program "example.org" .caldav exampleResolver true) (foundReplies foundReadable) = true := by
    decide +kernel
  have hcut : serves exchanges (foundNetwork (.error .eof))
      (program "example.org" .caldav exampleResolver true) (foundReplies foundCut) = true := by
    decide +kernel
  exact ⟨foundNetwork_sameButOther _ _, serves_sound hfound, serves_sound hcut, by decide +kernel,
    by decide +kernel⟩

theorem unrelated_lookups_iff_cut :
    letI := plainUrl
    letI := plainDns
    letI := plainHttp
    ¬ ∀ o₁' o₂', SameSrv exampleResolver (foundNetwork (.ok (PlainDns.srvAnswer "" []))) o₁' →
      SameSrv exampleResolver (foundNetwork (.error .eof)) o₂' →
      SameButOther .caldav (Text.trimMatches "example.org" '.') exampleResolver o₁' o₂' →
      davOrigin (Text.trimMatches "example.org" '.')
          (o₁'.davRecord .caldav (Text.trimMatches "example.org" '.') exampleResolver true) =
        davOrigin (Text.trimMatches "example.org" '.')
          (o₂'.davRecord .caldav (Text.trimMatches "example.org" '.') exampleResolver true) ∧
      (program "example.org" .caldav exampleResolver true).eval o₁' =
        (program "example.org" .caldav exampleResolver true).eval o₂' := by
  let _ := plainUrl
  let _ := plainDns
  let _ := plainHttp
  have htrim : Text.trimMatches "example.org" '.' = "example.org" := by decide +kernel
  intro hsame
  have hcond := (unrelated_lookups_iff "example.org" .caldav exampleResolver true _ _
    (htrim.symm ▸ foundNetwork_sameButOther (.ok (PlainDns.srvAnswer "" [])) (.error .eof))).2.mp
    hsame (true, { host := "dav.example.org", port := 8443, priority := 0, weight := 1 })
    (by decide +kernel)
  rcases hcond with hiff | ⟨err, -, herr⟩
  · have hcut : (foundNetwork (.error .eof)).OtherFails .caldav
        (Text.trimMatches "example.org" '.') exampleResolver :=
      ⟨false, .eof, by decide +kernel⟩
    obtain ⟨tls, err, herr⟩ := hiff.mpr hcut
    have hread : ∀ tls, (foundNetwork (.ok (PlainDns.srvAnswer "" []))).lookup .srv readSrv
        (DiscoveryDavService.carddav.srvQname tls (Text.trimMatches "example.org" '.'))
        exampleResolver = .ok [] := by
      decide +kernel
    exact nomatch (hread tls).symm.trans herr
  · have hnone : davOrigin (Text.trimMatches "example.org" '.') none = .ok exampleOrigin := by
      decide +kernel
    exact nomatch hnone.symm.trans herr

end DiscoveryDavResolve
end PimDiscovery
