import PimDiscovery.Coroutines.Respected
import PimDiscovery.Oauth.Json
import PimDiscovery.Pacc.Json

/-! A server may draft its JSON documents anew: the client sees neither the order of their members, nor members
it does not know, nor the bodies of answers it does not decode. -/

namespace PimDiscovery
open Interaction Serde Deserialize

def isSessionMember (name : String) : Bool := ["capabilities", jmapCore, "apiUrl"].contains name

/-- The members that are read of the metadata documents, which a request does not tell apart. -/
def isMetadataMember (name : String) : Bool :=
  (Wire.DiscoveryOauthServerMetadata.names ++ Wire.DiscoveryOauthResourceMetadata.names).contains name

/-- The same response but for its body, which where it is decoded is one that `Bodies` relates. -/
structure HttpResponse.SameBut (Bodies : Bytes → Bytes → Prop) (decoded : Prop) (a b : HttpResponse) :
    Prop where
  status : a.status = b.status
  headers : a.headers = b.headers
  body : decoded → Bodies a.body b.body

section
variable (writes : Bytes → JsonValue → Prop)

def RedraftedBody (known : String → Bool) (body body' : Bytes) : Prop :=
  body = body' ∨ ∃ entries entries' : List (String × JsonValue), writes body (.object entries) ∧
    writes body' (.object entries') ∧ Redraft known (.object entries) (.object entries')

/-- The body of a fetch, which only where it asks for metadata may be drafted anew. -/
def RedraftedFetch (request : HttpRequest) (body body' : Bytes) : Prop :=
  body = body' ∨ (∃ url, request = oauthRequest url) ∧ RedraftedBody writes isMetadataMember body body'

/-- The same answer, its JSON drafted anew where it is decoded and its body any where it is not: that of a
fetch is decoded of a success, that of a walk where it looks for a session. -/
def Exchange.Redrafted : (q : Exchange) → q.Answer → q.Answer → Prop
  | .dns _ _ _, a, b => a = b
  | .hop walk _ _, a, b => a = b ∨ ∃ output output', a = .ok output ∧ b = .ok output' ∧
    output.redirectUrl = output'.redirectUrl ∧ output.response.SameBut (RedraftedBody writes isSessionMember)
      (walk = .session ∧ output.response.isSuccess = true) output'.response
  | .send request, a, b => a = b ∨ (∃ response response', a = .response response ∧ b = .response response' ∧
      response.SameBut (RedraftedFetch writes request) (response.isSuccess = true) response') ∨
    ∃ url response response', a = .redirect url response ∧ b = .redirect url response' ∧
      response.SameBut (RedraftedFetch writes request) False response'

/-- What `serde_json` makes of the texts that write an object, each member once: the value itself, or the
struct that is read off it. -/
structure JsonTexts [UrlCrate] [SerdeCrate] : Prop where
  value : ∀ {body : Bytes} {entries : List (String × JsonValue)}, writes body (.object entries) →
    SerdeCrate.parseValue body = .ok (.object entries)
  server : ∀ {body : Bytes} {entries : List (String × JsonValue)}, writes body (.object entries) →
    (SerdeCrate.parseServerMetadata body).toOption = ((deserialize (.object entries) :
      Except Error Wire.DiscoveryOauthServerMetadata).toOption).map (·.core)
  resource : ∀ {body : Bytes} {entries : List (String × JsonValue)}, writes body (.object entries) →
    (SerdeCrate.parseResourceMetadata body).toOption = ((deserialize (.object entries) :
      Except Error Wire.DiscoveryOauthResourceMetadata).toOption).map (·.core)

end

/-- The challenges of a response stand in its headers. -/
class HeaderChallenges [IoHttpCrate] : Prop where
  challenges_body (response : HttpResponse) (body : Bytes) :
    IoHttpCrate.challenges { response with body } = IoHttpCrate.challenges response

/-- A job's answer, up to the text of a decoding error. -/
def Job.Alike : (job : Job) → job.Answer → job.Answer → Prop
  | .oauthServer _, a, b => Except.toOption a = Except.toOption b
  | .oauthResource _, a, b => Except.toOption a = Except.toOption b
  | _, a, b => a = b

section
variable {writes : Bytes → JsonValue → Prop}

theorem HttpResponse.SameBut.challenges [IoHttpCrate] [HeaderChallenges] {Bodies : Bytes → Bytes → Prop}
    {decoded : Prop} {a b : HttpResponse} (h : a.SameBut Bodies decoded b) :
    IoHttpCrate.challenges a = IoHttpCrate.challenges b := by
  obtain ⟨status, headers, body⟩ := a
  obtain ⟨status', headers', body'⟩ := b
  obtain ⟨rfl, rfl, -⟩ := h
  exact HeaderChallenges.challenges_body ⟨status, headers, body'⟩ body

theorem HttpResponse.SameBut.isSuccess {Bodies : Bytes → Bytes → Prop} {decoded : Prop}
    {a b : HttpResponse} (h : a.SameBut Bodies decoded b) : a.isSuccess = b.isSuccess := by
  unfold HttpResponse.isSuccess
  rw [h.status]

theorem isString_redraft {known : String → Bool} {value value' : Option JsonValue}
    (h : Option.Rel (Redraft known) value value') :
    (value.map JsonValue.isString).getD false = (value'.map JsonValue.isString).getD false := by
  cases h with
  | none => rfl
  | some h =>
    have hkind : JsonValue.isString _ = JsonValue.isString _ := h.congr (fun _ _ => rfl)
      (fun _ _ _ => rfl) (fun _ _ _ => rfl) fun _ _ _ => rfl
    exact hkind

theorem holdsMember_redraft {known : String → Bool} {value value' : Option JsonValue} {key : String}
    (h : Option.Rel (Redraft known) value value') (hkey : known key = true) :
    (value.bind (·.get key)).isSome = (value'.bind (·.get key)).isSome := by
  have hsome : ∀ {found found' : Option JsonValue},
      Option.Rel (Redraft known) found found' → found.isSome = found'.isSome := by
    intro found found' hfound
    cases hfound <;> rfl
  cases h with
  | none => rfl
  | some h => exact hsome (h.get hkey)

section
variable [SerdeCrate]

theorem isSession_of_value {body : Bytes} {session : JsonValue}
    (h : SerdeCrate.parseValue body = .ok session) :
    isSession body = (((session.get "capabilities").bind (·.get jmapCore)).isSome &&
      ((session.get "apiUrl").map JsonValue.isString).getD false) := by
  unfold isSession
  simp only [h]
  rcases session.get "capabilities" with _ | value
  · rfl
  · cases value <;> rfl

variable [UrlCrate]

theorem isSession_redrafted (hjson : JsonTexts writes) {body body' : Bytes}
    (h : RedraftedBody writes isSessionMember body body') : isSession body = isSession body' := by
  obtain rfl | ⟨entries, entries', hbody, hbody', hdraft⟩ := h
  · rfl
  · rw [isSession_of_value (hjson.value hbody), isSession_of_value (hjson.value hbody')]
    have hcapabilities := hdraft.get (show isSessionMember "capabilities" = true by decide)
    have hurl := hdraft.get (show isSessionMember "apiUrl" = true by decide)
    rw [holdsMember_redraft hcapabilities (by decide), isString_redraft hurl]

end

def WalkResult.Redrafted (writes : Bytes → JsonValue → Prop) (walk : WalkRole) (a b : WalkResult) : Prop :=
  a = b ∨ ∃ output output' : DiscoveryHttpWalkOutput, a = .ok (some output) ∧ b = .ok (some output') ∧
    output.url = output'.url ∧ output.hops = output'.hops ∧
    output.response.SameBut (RedraftedBody writes isSessionMember)
      (walk = .session ∧ output.response.isSuccess = true) output'.response

theorem DiscoveryHttpWalk.respects_redrafted {ρ : Type} {walk : WalkRole} {finish : WalkResult → ρ}
    (hfinish : ∀ a b : WalkResult, a.Redrafted writes walk b → finish a = finish b)
    (request : HttpRequest) :
    (program walk request >>= fun result => .pure (finish result)).Respects
      (Exchange.Redrafted writes) := by
  suffices hfrom : ∀ hops request, (programFrom walk hops request >>= fun result =>
      .pure (finish result)).Respects (Exchange.Redrafted writes) from hfrom 0 request
  intro hops request
  induction hn : maxHops - hops using Nat.strongRecOn generalizing hops request with
  | ind n ih =>
    rw [programFrom]
    constructor
    · rintro a b (rfl | ⟨output, output', rfl, rfl, hredirect, hresponse⟩)
      · rfl
      · simp only [hredirect]
        cases output'.redirectUrl with
        | some next => rfl
        | none =>
          have hend := hfinish (.ok (some { url := request.url, hops, response := output.response }))
            (.ok (some { url := request.url, hops, response := output'.response }))
            (.inr ⟨_, _, rfl, rfl, rfl, rfl, hresponse⟩)
          exact congrArg Prog.pure hend
    · rintro (err | output)
      · exact True.intro
      · simp only
        split
        · split
          · exact True.intro
          · exact ih (maxHops - (hops + 1)) (by omega) _ _ rfl
        · exact True.intro

section
variable [IoHttpCrate] [HeaderChallenges]

theorem isContextRoot_redrafted {Bodies : Bytes → Bytes → Prop} {decoded : Prop} {a b : HttpResponse}
    (h : a.SameBut Bodies decoded b) : isContextRoot a = isContextRoot b := by
  unfold isContextRoot
  rw [h.status, h.challenges]

theorem DiscoveryDavContext.finish_redrafted {walk : WalkRole} {a b : WalkResult}
    (h : a.Redrafted writes walk b) : finish a = finish b := by
  obtain rfl | ⟨output, output', rfl, rfl, hurl, -, hresponse⟩ := h
  · rfl
  · simp only [finish, isContextRoot_redrafted hresponse, hurl]

theorem DiscoveryWellKnown.finish_redrafted {walk : WalkRole} {a b : WalkResult}
    (h : a.Redrafted writes walk b) : finish a = finish b := by
  obtain rfl | ⟨output, output', rfl, rfl, hurl, hhops, hresponse⟩ := h
  · rfl
  · simp only [finish, isContextRoot_redrafted hresponse, hurl, hhops]

theorem DiscoveryProbeAuth.finish_redrafted {walk : WalkRole} {a b : WalkResult}
    (h : a.Redrafted writes walk b) : finish a = finish b := by
  obtain rfl | ⟨output, output', rfl, rfl, -, -, hresponse⟩ := h
  · rfl
  · simp only [finish, hresponse.challenges]

variable [UrlCrate] [SerdeCrate]

theorem DiscoveryJmapWellKnown.finish_redrafted (hjson : JsonTexts writes) {a b : WalkResult}
    (h : a.Redrafted writes .session b) : finish a = finish b := by
  obtain rfl | ⟨output, output', rfl, rfl, hurl, -, hresponse⟩ := h
  · rfl
  · have hvalid : ∀ schemes, isValidated output.response schemes = isValidated output'.response schemes := by
      intro schemes
      unfold isValidated
      rw [hresponse.status]
      split
      · rename_i hok
        have hsuccess : output.response.isSuccess = true := by
          rw [hresponse.isSuccess]
          simpa [HttpResponse.isSuccess] using hok
        exact isSession_redrafted hjson (hresponse.body ⟨rfl, hsuccess⟩)
      · rfl
    simp only [finish, hresponse.challenges, hvalid, hurl]

variable [DomainCrate]

omit [IoHttpCrate] [HeaderChallenges] [UrlCrate] [SerdeCrate] in
theorem DnsLookup.respects_redrafted {ρ : Type} {qtype : QType} {read : String → List MessageItem → ρ}
    (domain : String) (resolver : Url) :
    (program qtype read domain resolver).Respects (Exchange.Redrafted writes) := by
  unfold program
  cases queryMessage qtype domain with
  | error err => trivial
  | ok message => exact Prog.Respects.ask_pure fun _ _ hab => congrArg _ hab

omit [IoHttpCrate] [HeaderChallenges] [UrlCrate] [SerdeCrate] in
theorem DiscoveryDnsProbe.respects_redrafted (domain : String) (resolver : Url) :
    (program domain resolver).Respects (Exchange.Redrafted writes) := by
  unfold program
  cases queryMessage .soa domain with
  | error err => trivial
  | ok message => exact Prog.Respects.ask_pure fun _ _ hab => congrArg _ hab

theorem respected_redrafted (hjson : JsonTexts writes) : Respected (Exchange.Redrafted writes) where
  probe := DiscoveryDnsProbe.respects_redrafted
  srv := DnsLookup.respects_redrafted
  mx := DnsLookup.respects_redrafted
  cname := DnsLookup.respects_redrafted
  txt := DnsLookup.respects_redrafted
  get url := by
    apply Prog.Respects.ask_pure
    have hplain : ∀ {body body' : Bytes}, RedraftedFetch writes (DiscoveryHttpGet.request url) body body' →
        body = body' := by
      rintro body body' (rfl | ⟨⟨other, hrequest⟩, -⟩)
      · rfl
      · -- Only the fetches of metadata ask for JSON.
        have hheaders := congrArg HttpRequest.headers hrequest
        simp [DiscoveryHttpGet.request, oauthRequest, HttpRequest.header, HttpRequest.get] at hheaders
    rintro a b (rfl | ⟨response, response', rfl, rfl, hresponse⟩ |
      ⟨next, response, response', rfl, rfl, hresponse⟩)
    · rfl
    · simp only [DiscoveryHttpGet.finish, hresponse.isSuccess, hresponse.status]
      split
      · rfl
      · rename_i hfailed
        have hsuccess : response.isSuccess = true := by
          rw [hresponse.isSuccess]
          simpa using hfailed
        rw [hplain (hresponse.body hsuccess)]
    · simp only [DiscoveryHttpGet.finish, hresponse.status]
  context walk url := DiscoveryHttpWalk.respects_redrafted
    (fun _ _ => DiscoveryDavContext.finish_redrafted) (propfind url)
  wellKnown origin service := by
    unfold DiscoveryWellKnown.program
    split
    · exact DiscoveryHttpWalk.respects_redrafted (fun _ _ => DiscoveryWellKnown.finish_redrafted) _
    · trivial
  session origin := DiscoveryHttpWalk.respects_redrafted
    (fun _ _ => DiscoveryJmapWellKnown.finish_redrafted hjson) _
  schemes url := DiscoveryHttpWalk.respects_redrafted
    (fun _ _ => DiscoveryProbeAuth.finish_redrafted) _

end

section
variable [UrlCrate] [SerdeCrate]

theorem JsonTexts.server_redrafted (hjson : JsonTexts writes) {body body' : Bytes}
    (h : RedraftedBody writes isMetadataMember body body') :
    (SerdeCrate.parseServerMetadata body).toOption = (SerdeCrate.parseServerMetadata body').toOption := by
  obtain rfl | ⟨entries, entries', hbody, hbody', hdraft⟩ := h
  · rfl
  · have htolerant : Tolerant isMetadataMember Wire.DiscoveryOauthServerMetadata :=
      Wire.DiscoveryOauthServerMetadata.tolerant (by decide)
    rw [hjson.server hbody, hjson.server hbody', Tolerant.deserialize_redraft hdraft]

theorem JsonTexts.resource_redrafted (hjson : JsonTexts writes) {body body' : Bytes}
    (h : RedraftedBody writes isMetadataMember body body') :
    (SerdeCrate.parseResourceMetadata body).toOption =
      (SerdeCrate.parseResourceMetadata body').toOption := by
  obtain rfl | ⟨entries, entries', hbody, hbody', hdraft⟩ := h
  · rfl
  · have htolerant : Tolerant isMetadataMember Wire.DiscoveryOauthResourceMetadata :=
      Wire.DiscoveryOauthResourceMetadata.tolerant (by decide)
    rw [hjson.resource hbody, hjson.resource hbody', Tolerant.deserialize_redraft hdraft]

end

theorem oauthFinish_redrafted {ρ : Type} {parse : Bytes → Except String ρ}
    (hparse : ∀ body body', RedraftedBody writes isMetadataMember body body' →
      (parse body).toOption = (parse body').toOption) {request : HttpRequest} {a b : HttpSendEnd}
    (h : Exchange.Redrafted writes (.send request) a b) :
    (oauthFinish parse a).toOption = (oauthFinish parse b).toOption := by
  have hread : ∀ response : HttpResponse, (oauthFinish parse (.response response)).toOption =
      if response.isSuccess then (parse response.body).toOption else none := by
    intro response
    unfold oauthFinish
    simp only
    split
    · cases parse response.body <;> rfl
    · rfl
  obtain rfl | ⟨response, response', rfl, rfl, hresponse⟩ |
    ⟨next, response, response', rfl, rfl, hresponse⟩ := h
  · rfl
  · rw [hread, hread, ← hresponse.isSuccess]
    by_cases hsuccess : response.isSuccess = true
    · rw [if_pos hsuccess, if_pos hsuccess]
      obtain heq | ⟨-, hdraft⟩ := hresponse.body hsuccess
      · rw [heq]
      · exact hparse _ _ hdraft
    · rw [if_neg hsuccess, if_neg hsuccess]
  · rfl

/-- What a job returns of some servers it returns of servers that draft their JSON anew, but for the text of
a decoding error. -/
theorem Job.returns_redrafted [UrlCrate] [DomainCrate] [IoHttpCrate] [SerdeCrate] [DigestCrate]
    [HeaderChallenges] (hjson : JsonTexts writes) (client : DiscoveryComposeClientStd) (job : Job)
    {heard heard' : Hearing}
    (hsame : ∀ q a, heard q a → ∃ a', heard' q a' ∧ q.Redrafted writes a a') {answer : job.Answer}
    (h : (job.program client).Returns heard answer) :
    ∃ answer', (job.program client).Returns heard' answer' ∧ job.Alike answer answer' := by
  have hother : (∀ url, job ≠ .oauthServer url) → (∀ url, job ≠ .oauthResource url) →
      (job.program client).Returns heard' answer := by
    intro hserver hresource
    have hrespects := (respected_redrafted hjson).job client job
      (fun url hurl => absurd hurl (hserver url)) fun url hurl => absurd hurl (hresource url)
    exact hrespects.returns hsame h
  cases job with
  | oauthServer url =>
    obtain ⟨a, ha, rfl⟩ := h
    obtain ⟨a', ha', hdraft⟩ := hsame _ a ha
    exact ⟨_, ⟨a', ha', rfl⟩, oauthFinish_redrafted (fun _ _ => hjson.server_redrafted) hdraft⟩
  | oauthResource url =>
    obtain ⟨a, ha, rfl⟩ := h
    obtain ⟨a', ha', hdraft⟩ := hsame _ a ha
    exact ⟨_, ⟨a', ha', rfl⟩, oauthFinish_redrafted (fun _ _ => hjson.resource_redrafted) hdraft⟩
  | check | mx | pacc | isp | mailconf | cname | srv | dav | jmap | wellKnown | auth =>
    exact ⟨answer, hother (fun _ => by simp) fun _ => by simp, rfl⟩

end

/-- What reads the documents off the JSON values that `parse` reads. -/
@[reducible] def valueSerde [UrlCrate] (parse : Bytes → Except String JsonValue) : SerdeCrate :=
  { plainSerde with
    parseValue := parse
    parsePacc := fun body =>
      match (parse body).map fun value =>
        (deserialize value : Except Serde.Error Wire.DiscoveryPaccConfig) with
      | .ok (.ok config) => .ok config.core
      | .ok (.error _) => .error "missing field"
      | .error err => .error err
    parseServerMetadata := fun body =>
      match (parse body).map fun value =>
        (deserialize value : Except Serde.Error Wire.DiscoveryOauthServerMetadata) with
      | .ok (.ok metadata) => .ok metadata.core
      | .ok (.error _) => .error "missing field"
      | .error err => .error err
    parseResourceMetadata := fun body =>
      match (parse body).map fun value =>
        (deserialize value : Except Serde.Error Wire.DiscoveryOauthResourceMetadata) with
      | .ok (.ok metadata) => .ok metadata.core
      | .ok (.error _) => .error "missing field"
      | .error err => .error err }

theorem valueSerde_jsonTexts [UrlCrate] (parse : Bytes → Except String JsonValue) :
    letI := valueSerde parse
    JsonTexts fun body value => parse body = .ok value := by
  refine @JsonTexts.mk _ _ (valueSerde parse) (fun h => h) (fun {body entries} h => ?_)
    fun {body entries} h => ?_
  · simp only [SerdeCrate.parseServerMetadata, h, Except.map]
    cases (deserialize (JsonValue.object entries) :
      Except Serde.Error Wire.DiscoveryOauthServerMetadata) <;> rfl
  · simp only [SerdeCrate.parseResourceMetadata, h, Except.map]
    cases (deserialize (JsonValue.object entries) :
      Except Serde.Error Wire.DiscoveryOauthResourceMetadata) <;> rfl

end PimDiscovery
