import PimDiscovery.Compose.Jobs
import PimDiscovery.Compose.Supervised

/-! What whole runs of a secure-only client deliver: DNS messages to its resolver and writes to `https`
streams, as long as nothing it follows out of an answer is a `tcp` URL. -/

namespace PimDiscovery
open Interaction

inductive Entry where
  | config (entry : ConfigEntry)
  | checkResolver (input : String)
  | auth (url : Url)
  | oauthServer (issuer : Url)
  | oauthResource (resource : Url)

namespace Entry

@[reducible] def Result : Entry → Type
  | config _ => ComposeResult
  | checkResolver _ => Except DiscoveryComposeClientStdError Unit
  | auth _ => Option (List String)
  | oauthServer _ => Option DiscoveryOauthServerMetadata
  | oauthResource _ => Option DiscoveryOauthResourceMetadata

def program [UrlCrate] [PslCrate] (client : DiscoveryComposeClientStd) :
    (entry : Entry) → Compose entry.Result
  | config entry => entry.program client
  | checkResolver input => Compose.inline (client.checkResolver input)
  | auth url => Compose.inline (DiscoveryComposeClientStd.auth url)
  | oauthServer issuer => Compose.inline (DiscoveryComposeClientStd.oauthServer issuer)
  | oauthResource resource => Compose.inline (DiscoveryComposeClientStd.oauthResource resource)

def NamesNoTcp : Entry → Prop
  | auth url | oauthServer url | oauthResource url => ¬ url.OpensTcp
  | config _ | checkResolver _ => True

end Entry

namespace DiscoveryComposeClientStd

section
variable [UrlCrate] [PslCrate] [DomainCrate] [IoHttpCrate] [SerdeCrate] [DigestCrate]
variable (client : DiscoveryComposeClientStd) (cond : (q : Exchange) → q.Answer → Prop)

def ExchangeRun (q : Exchange) (ds : List Delivery) (r : Option q.Answer) : Prop :=
  client.ExchangeExec q ds r ∧ ∀ a, r = some a → cond q a

def JobRun (job : Job) (ds : List Delivery) (r : Option job.Answer) : Prop :=
  (∃ script, job.run client script = (ds, r)) ∧
    (job.program client).Emits (client.ExchangeRun cond) ds r

def TaskRun {kind : TaskKind} (task : Task kind) (ds : List Delivery) (r : Option kind.Result) :
    Prop :=
  (client.taskBody task).Emits (client.JobRun cond) ds r

/-- What an effect delivers. Threads share no stream, so the deliveries of each stand together. -/
inductive EffectRun : (effect : Effect) → List Delivery → Option effect.Answer → Prop where
  | run {job : Job} {ds : List Delivery} {r : Option job.Answer} (h : client.JobRun cond job ds r) :
      EffectRun (.run job) ds r
  -- A thread that has not ended yet is joined like one that panicked, for the others to go on.
  | join {kind : TaskKind} {task : Task kind} {ds : List Delivery} {r : Option kind.Result}
      (h : client.TaskRun cond task ds r) : EffectRun (.join kind task) ds (some r)
  | spawn {kind : TaskKind} {index : Nat} {task : Task kind} {ds : List Delivery}
      {r : Option kind.Result} (h : client.TaskRun cond task ds r) :
      EffectRun (.spawn kind index task) ds (some ())
  | recv {kind : TaskKind} {tasks : List (Task kind)} {remaining : Nat}
      {answer : Option (Nat × kind.Result)}
      (h : ∀ index result, answer = some (index, result) → ∃ task ds, tasks[index]? = some task ∧
        client.TaskRun cond task ds (some result)) :
      EffectRun (.recv kind tasks remaining) [] (some answer)
  | now (time : Nat) : EffectRun .now [] (some time)
  | stopped (effect : Effect) : EffectRun effect [] none

/-- The deliveries of a run of an entry point, up to any point of it. -/
def Delivers (entry : Entry) (ds : List Delivery) : Prop :=
  ∃ r, (entry.program client).Emits (client.EffectRun cond) ds r

/-- A resolve that its I/O leaves midway is a run of the `jmap` entry point. -/
theorem delivers_jmap (input : String) (script : List StreamIo)
    (h : (Job.run client (.jmap (domainPart input)) script).2 = none) :
    client.Delivers (fun _ _ => True) (.config (.jmap input))
      (Job.run client (.jmap (domainPart input)) script).1 := by
  have hemits : ((Job.jmap (domainPart input)).program client).Emits
      (client.ExchangeRun fun _ _ => True) (Job.run client (.jmap (domainPart input)) script).1
        (Job.run client (.jmap (domainPart input)) script).2 :=
    (Job.run_emits client _ script).mono fun _ _ _ hexec => ⟨hexec, fun _ _ => trivial⟩
  have hjob : client.JobRun (fun _ _ => True) (.jmap (domainPart input))
      (Job.run client (.jmap (domainPart input)) script).1
        (Job.run client (.jmap (domainPart input)) script).2 :=
    ⟨⟨script, rfl⟩, hemits⟩
  rw [h] at hjob
  exact ⟨none, .stopped (.run hjob)⟩

variable {client cond} in
theorem delivers_auth {url : Url} {ds : List Delivery} {schemes : List String}
    (h : client.JobRun cond (.auth url) ds (some (.ok schemes))) :
    client.Delivers cond (.auth url) ds := by
  have hnext : ∃ r, ((if !schemes.isEmpty then pure (some schemes) else pure none :
      Work (Option (List String))).interpret fun job => Compose.ask (.run job)).Emits
        (client.EffectRun cond) [] r := by
    split
    · exact ⟨_, .pure _⟩
    · exact ⟨_, .pure _⟩
  obtain ⟨r, hr⟩ := hnext
  refine ⟨r, ?_⟩
  rw [← List.append_nil ds]
  exact Prog.Emits.answered (EffectRun.run h) hr

end

section
variable [UrlCrate]

def GoodEffect : Effect → Prop
  | .run job => GoodJob job
  | .join _ task | .spawn _ _ task => GoodTask GoodIssuer task
  | .recv _ _ _ | .now => True

def GoodReport : (effect : Effect) → effect.Answer → Prop
  | .run job, answer => GoodAnswer job answer
  | .join _ task, answer => ∀ result, answer = some result → GoodResult GoodIssuer task result
  | .recv _ tasks _, answer => (∀ task ∈ tasks, GoodTask GoodIssuer task) →
    ∀ index result, answer = some (index, result) →
      ∃ task ∈ tasks, GoodResult GoodIssuer task result
  | .spawn _ _ _, _ | .now, _ => True

theorem sources_good : Sources GoodJob GoodAnswer GoodIssuer where
  named job hjob := by cases job <;> trivial
  isp _ hscheme := Url.not_opensTcp_https hscheme
  auth _ hscheme := Url.not_opensTcp_https hscheme
  wellKnown _ _ hscheme := hscheme
  oauthServer _ url hissuer hparse := ⟨hissuer url hparse, hissuer url hparse⟩
  oauthResource url hscheme := ⟨Url.not_opensTcp_https hscheme, url, rfl⟩
  pacc _ config oauth hanswer hoauth := hanswer config oauth rfl hoauth
  resource _ metadata hanswer := hanswer metadata rfl

theorem supervised_good : Supervised GoodEffect GoodReport GoodIssuer where
  inline := sources_good
  join _ _ ht := ht
  spawn _ _ _ ht := ht
  recv _ _ _ := trivial
  now := trivial
  joined _ _ result _ hanswer := hanswer result rfl
  received _ _ _ index result ht hanswer := hanswer ht index result rfl

variable [PslCrate] {client : DiscoveryComposeClientStd} (hurls : HttpsUrls)
  (hsecure : client.secureOnly = true)
include hurls hsecure

theorem entry_good {entry : Entry} (hentry : entry.NamesNoTcp) :
    (entry.program client).Always GoodEffect GoodReport fun _ => True := by
  have hinline : ∀ {α : Type} {work : Work α} {post : α → Prop},
      work.Always GoodJob GoodAnswer post →
        (Compose.inline work).Always GoodEffect GoodReport fun _ => True := by
    intro α work post hwork
    have hrun : (Compose.inline work).Always GoodEffect GoodReport post :=
      hwork.interpret fun job hjob => .call hjob
    exact hrun.mono fun _ _ => trivial
  cases entry with
  | config entry => exact (supervised_good.entry hurls hsecure entry).mono fun _ _ => trivial
  | checkResolver input => exact hinline (sources_good.checkResolver input)
  | auth url => exact hinline (auth_always hentry)
  | oauthServer issuer => exact hinline (oauthServer_always hentry hentry)
  | oauthResource resource => exact hinline (oauthResource_always ⟨hentry, resource, rfl⟩)

variable [DomainCrate] [IoHttpCrate] [SerdeCrate] [DigestCrate] (hrequests : WellKnownRequests)
include hrequests

omit [PslCrate] in
theorem job_encrypted {job : Job} {ds : List Delivery} {r : Option job.Answer} (hjob : GoodJob job)
    (h : client.JobRun NamesNoTcp job ds r) :
    (∀ d ∈ ds, client.Encrypted d) ∧ ∀ a, r = some a → GoodAnswer job a := by
  refine (job_good hurls hrequests hsecure hjob).emits (fun q es r hq hexec => ?_) h.2
  exact ⟨exchange_encrypted hsecure hq hexec.1, hexec.2⟩

theorem task_encrypted {kind : TaskKind} {task : Task kind} {ds : List Delivery}
    {r : Option kind.Result} (ht : GoodTask GoodIssuer task)
    (h : client.TaskRun NamesNoTcp task ds r) :
    (∀ d ∈ ds, client.Encrypted d) ∧ ∀ a, r = some a → GoodResult GoodIssuer task a :=
  (sources_good.taskBody hsecure hurls ht).emits
    (fun _ _ _ hjob hrun => job_encrypted hurls hsecure hrequests hjob hrun) h

theorem effect_encrypted {effect : Effect} {ds : List Delivery} {r : Option effect.Answer}
    (heffect : GoodEffect effect) (h : client.EffectRun NamesNoTcp effect ds r) :
    (∀ d ∈ ds, client.Encrypted d) ∧ ∀ a, r = some a → GoodReport effect a := by
  have htask := @task_encrypted _ _ client hurls hsecure _ _ _ _ hrequests
  cases h with
  | run h => exact job_encrypted hurls hsecure hrequests heffect h
  | join h =>
    obtain ⟨hds, hresult⟩ := htask heffect h
    refine ⟨hds, fun answer hanswer result hr => hresult result ?_⟩
    exact (Option.some.inj hanswer).trans hr
  | spawn h => exact ⟨(htask heffect h).1, fun _ _ => trivial⟩
  | recv h =>
    refine ⟨List.forall_mem_nil _, fun answer hanswer ht index result hr => ?_⟩
    obtain ⟨task, ds, hindex, hrun⟩ := h index result ((Option.some.inj hanswer).trans hr)
    have hmem := List.mem_of_getElem? hindex
    exact ⟨task, hmem, (htask (ht task hmem) hrun).2 result rfl⟩
  | now time => exact ⟨List.forall_mem_nil _, fun _ _ => trivial⟩
  | stopped => exact ⟨List.forall_mem_nil _, nofun⟩

/-- A run in which nothing that is followed is a `tcp` URL delivers encrypted writes only, beside the
DNS messages to the resolver. -/
theorem delivers_encrypted {entry : Entry} (hentry : entry.NamesNoTcp) {ds : List Delivery}
    (h : client.Delivers NamesNoTcp entry ds) : ∀ d ∈ ds, client.Encrypted d := by
  obtain ⟨r, hrun⟩ := h
  refine ((entry_good hurls hsecure hentry).emits (fun effect es r heffect hexec => ?_) hrun).1
  exact effect_encrypted hurls hsecure hrequests heffect hexec

end

def roundTrip (reply : Bytes) : List StreamIo :=
  [{ connects := true, result := some [] }, { connects := true, result := some reply }]

def movedProbe : List StreamIo × List StreamIo :=
  (roundTrip (Text.bytes "HTTP/1.1 302 Found\r\nLocation: /dav/\r\n\r\n"),
    roundTrip (Text.bytes "HTTP/1.1 401 Unauthorized\r\nWWW-Authenticate: Basic\r\n\r\n"))

def movedUrl : Url := { exampleOrigin with path := "/dav/" }

def probeDelivery (url : Url) : Delivery where
  stream := { factory := "https", id := 0 }
  url := url
  bytes := PlainHttp.render (HttpRequest.get url)

theorem delivers_moved_probe :
    letI := plainUrl
    letI := plainPsl
    letI := plainDns
    letI := plainHttp
    letI := plainSerde
    letI := DiscoveryPacc.vouchedCrates
    let client := (DiscoveryComposeClientStd.new exampleResolver).withSecureOnly true
    let ds := [probeDelivery exampleOrigin, probeDelivery movedUrl]
    client.Delivers NamesNoTcp (.auth exampleOrigin) ds ∧ ∀ d ∈ ds, client.Encrypted d := by
  let _ := plainUrl
  let _ := plainPsl
  let _ := plainDns
  let _ := plainHttp
  let _ := plainSerde
  let _ := DiscoveryPacc.vouchedCrates
  let client := (DiscoveryComposeClientStd.new exampleResolver).withSecureOnly true
  have hmoved : client.ExchangeRun NamesNoTcp (.hop .schemes 0 (HttpRequest.get exampleOrigin))
      [probeDelivery exampleOrigin] (some (.ok
        { redirectUrl := some movedUrl
          response := { status := 302, headers := [("location", "/dav/")], body := [] } })) := by
    refine ⟨⟨client.pool, movedProbe.1, client.pool_holds, by decide +kernel, by decide +kernel⟩, ?_⟩
    intro answer hanswer _ output next houtput hnext
    obtain rfl := Option.some.inj hanswer
    obtain rfl := Except.ok.inj houtput
    obtain rfl := Option.some.inj hnext
    exact Url.not_opensTcp_https rfl
  have hthere : client.ExchangeRun NamesNoTcp (.hop .schemes 1 (HttpRequest.get movedUrl))
      [probeDelivery movedUrl] (some (.ok
        { redirectUrl := none
          response := { status := 401, headers := [("www-authenticate", "Basic")], body := [] } })) := by
    refine ⟨⟨client.pool, movedProbe.2, client.pool_holds, by decide +kernel, by decide +kernel⟩, ?_⟩
    intro answer hanswer _ output next houtput hnext
    obtain rfl := Option.some.inj hanswer
    obtain rfl := Except.ok.inj houtput
    exact nomatch hnext
  -- The two exchanges one after the other are the job.
  have hrun : Job.run client (.auth exampleOrigin) (movedProbe.1 ++ movedProbe.2) =
      ([probeDelivery exampleOrigin, probeDelivery movedUrl], some (.ok ["basic"])) := by
    decide +kernel
  have hjob : client.JobRun NamesNoTcp (.auth exampleOrigin)
      [probeDelivery exampleOrigin, probeDelivery movedUrl] (some (.ok ["basic"])) :=
    ⟨⟨_, hrun⟩, DiscoveryProbeAuth.emits_moved hmoved rfl hthere rfl⟩
  have hdelivers := delivers_auth hjob
  refine ⟨hdelivers, ?_⟩
  have hentry : (Entry.auth exampleOrigin).NamesNoTcp := Url.not_opensTcp_https rfl
  exact delivers_encrypted plainUrl_https rfl plainHttp_wellKnownRequests hentry hdelivers

/-- A resolver without a record, a server that redirects to a `tcp` URL, and one more write. -/
def tcpRedirect : List StreamIo :=
  roundTrip (framed [0, 1, 129, 128, 0, 0, 0, 0, 0, 0, 0, 0]) ++
    roundTrip (Text.bytes "HTTP/1.1 302 Found\r\nLocation: tcp://198.51.100.7:80/\r\n\r\n") ++
    [{ connects := true, result := some [] }]

/-- The request of a redirected JMAP probe goes out on a bare TCP stream. -/
theorem redirect_delivers_plain :
    letI := plainUrl
    letI := plainPsl
    letI := plainDns
    letI := plainHttp
    letI := plainSerde
    letI := DiscoveryPacc.vouchedCrates
    let client := (DiscoveryComposeClientStd.new exampleResolver).withSecureOnly true
    ¬ ∀ entry ds, client.Delivers (fun _ _ => True) entry ds → ∀ d ∈ ds, client.Encrypted d := by
  let _ := plainUrl
  let _ := plainPsl
  let _ := plainDns
  let _ := plainHttp
  let _ := plainSerde
  let _ := DiscoveryPacc.vouchedCrates
  let client := (DiscoveryComposeClientStd.new exampleResolver).withSecureOnly true
  have hend : (Job.run client (.jmap (domainPart "example.org")) tcpRedirect).2 = none := by
    decide +kernel
  have hplain : ((Job.run client (.jmap (domainPart "example.org")) tcpRedirect).1.any fun d =>
      d.stream.factory != "https" && d.url != exampleResolver) = true := by
    decide +kernel
  obtain ⟨d, hd, hd'⟩ := List.any_eq_true.mp hplain
  rw [Bool.and_eq_true, bne_iff_ne, bne_iff_ne] at hd'
  intro _ hall
  rcases hall _ _ (client.delivers_jmap "example.org" tcpRedirect hend) d hd with hdns | hhttps
  · exact hd'.2 hdns.1
  · exact hd'.1 hhttps

end DiscoveryComposeClientStd
end PimDiscovery
