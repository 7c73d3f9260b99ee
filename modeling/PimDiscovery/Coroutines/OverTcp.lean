import PimDiscovery.Compose.Machines
import PimDiscovery.Pacc.Vouched
import PimDiscovery.Shared.Framing

/-! The jobs that only ask the resolver, run over a pool against a DNS server behind TCP: however its answers are
cut into reads, each question is put once and the job ends as it does on these answers. -/

namespace PimDiscovery
open Interaction

/-- How the I/O of a yield goes that hands back `arg`. -/
def StreamIo.feed (arg : Option Bytes) : StreamIo := { connects := true, result := some (arg.getD []) }

/-- The pool can reach the URL, a write is followed by no bytes, and a read by what fits the buffer. -/
structure Fits (factories : List String) (y : DiscoveryYield) (arg : Option Bytes) : Prop where
  reach : ∃ key, StreamPoolKey.ofUrl y.url = some key ∧ key.scheme ∈ factories
  kind : (∃ url bytes, y = .wantsWrite url bytes ∧ arg = none) ∨
    ∃ url chunk, y = .wantsRead url ∧ arg = some chunk ∧ chunk.length ≤ readBufferSize

def DiscoveryYield.written : DiscoveryYield → List Bytes
  | wantsRead _ => []
  | wantsWrite _ bytes => [bytes]

theorem DiscoveryStreamPool.get_connects {pool : DiscoveryStreamPool} {url : Url} {key : StreamPoolKey}
    (hkey : StreamPoolKey.ofUrl url = some key) (h : key.scheme ∈ pool.factories) :
    ∃ stream pool', pool.get url true = (some stream, pool') := by
  unfold get
  simp only [hkey]
  cases pool.streams.lookup key with
  | some stream => exact ⟨stream, pool, rfl⟩
  | none =>
    simp only [h, decide_true, Bool.and_true, if_true]
    exact ⟨_, _, rfl⟩

theorem runYield_fed {factories : List String} {pool : DiscoveryStreamPool} {y : DiscoveryYield}
    {arg : Option Bytes} (hpool : pool.Holds factories) (h : Fits factories y arg) :
    (runYield pool y (.feed arg)).1.Holds factories ∧ (runYield pool y (.feed arg)).2.1 = arg ∧
      (runYield pool y (.feed arg)).2.2.map Delivery.bytes = y.written := by
  refine ⟨runYield_holds pool y _ hpool, ?_⟩
  obtain ⟨key, hkey, hscheme⟩ := h.reach
  rw [← hpool.registered] at hscheme
  obtain ⟨stream, pool', hget⟩ := DiscoveryStreamPool.get_connects hkey hscheme
  rcases h.kind with ⟨url, bytes, rfl, rfl⟩ | ⟨url, chunk, rfl, rfl, hchunk⟩
  · have hurl : pool.get url true = (some stream, pool') := hget
    simp only [runYield, StreamIo.feed, hurl]
    exact ⟨rfl, rfl⟩
  · have hurl : pool.get url true = (some stream, pool') := hget
    simp only [runYield, StreamIo.feed, hurl, Option.getD_some]
    exact ⟨congrArg some (List.take_of_length_le hchunk), rfl⟩

section
variable [IoHttpCrate] {resolver : Url}

namespace DiscoveryDnsExchange

/-- The frame of a response as a server may send it, in reads that the buffer holds. -/
structure Cut (response : Bytes) (chunks : List Bytes) : Prop where
  whole : chunks.flatten = framed response
  reads : ∀ chunk ∈ chunks, chunk ≠ [] ∧ chunk.length ≤ readBufferSize

/-- By induction on the reads: all but the last leave the frame incomplete. -/
theorem reading_fed {factories : List String}
    (hreach : ∃ key, StreamPoolKey.ofUrl resolver = some key ∧ key.scheme ∈ factories)
    {response : Bytes} (hresponse : response.length ≤ 65535) {chunks : List Bytes}
    (hchunks : ∀ chunk ∈ chunks, chunk ≠ [] ∧ chunk.length ≤ readBufferSize) (hsome : chunks ≠ [])
    (acc : Bytes) (hwhole : acc ++ chunks.flatten = framed response) :
    outcome resume { resolver, state := .tcpRead acc } (chunks.map some) = some (.ok response) ∧
      List.Forall₂ (Fits factories)
        (.wantsRead resolver :: yields resume { resolver, state := .tcpRead acc } (chunks.map some))
        (chunks.map some) := by
  have hframe : framed response = lengthPrefix response.length ++ response ++ [] := by
    rw [framed_eq hresponse, List.append_nil]
  have hlength : (framed response).length = 2 + response.length := by
    rw [framed_eq hresponse, List.length_append]
    rfl
  induction chunks generalizing acc with
  | nil => exact absurd rfl hsome
  | cons chunk chunks ih =>
    obtain ⟨⟨hchunk, hsize⟩, hrest⟩ := List.forall_mem_cons.mp hchunks
    have hfits : Fits factories (.wantsRead resolver) (some chunk) :=
      ⟨hreach, .inr ⟨resolver, chunk, rfl, rfl, hsize⟩⟩
    rw [List.flatten_cons, ← List.append_assoc] at hwhole
    rw [List.map_cons]
    unfold outcome yields
    cases chunks with
    | nil =>
      rw [List.flatten_nil, List.append_nil] at hwhole
      have henough : body (acc ++ chunk) = some response := by
        rw [hwhole]
        exact @body_enough response [] _ [] hresponse (by rw [List.append_nil, hframe]) hlength.ge
      rw [resume_reading_enough hchunk henough]
      exact ⟨rfl, .cons hfits .nil⟩
    | cons next chunks =>
      have hnext : next ≠ [] := (hrest next (List.mem_cons_self ..)).1
      have hshort : (acc ++ chunk).length < 2 + response.length := by
        have hpos := List.length_pos_iff.mpr hnext
        rw [← hlength, ← hwhole, List.flatten_cons, @List.length_append _ (acc ++ chunk),
          @List.length_append _ next]
        omega
      rw [resume_reading_short hchunk (body_short hresponse (hwhole.trans hframe) hshort)]
      obtain ⟨houtcome, hyields⟩ := ih hrest (List.cons_ne_nil _ _) _ hwhole
      exact ⟨houtcome, .cons hfits hyields⟩

theorem new_tcp (hscheme : resolver.scheme = "tcp") (message : Bytes) :
    new message resolver = { resolver, state := .tcpWrite (framed message) } := by
  unfold new
  split
  · rename_i hhttp
    exact absurd (hscheme.symm.trans hhttp) (by decide)
  · rename_i hhttps
    exact absurd (hscheme.symm.trans hhttps) (by decide)
  · rfl

theorem exchange_fed {factories : List String} (hscheme : resolver.scheme = "tcp")
    (hreach : ∃ key, StreamPoolKey.ofUrl resolver = some key ∧ key.scheme ∈ factories)
    (message : Bytes) {response : Bytes} (hresponse : response.length ≤ 65535) {chunks : List Bytes}
    (hcut : Cut response chunks) :
    outcome resume (new message resolver) (none :: none :: chunks.map some) = some (.ok response) ∧
      List.Forall₂ (Fits factories)
        (yields resume (new message resolver) (none :: none :: chunks.map some))
        (none :: chunks.map some) ∧
      (yields resume (new message resolver) (none :: none :: chunks.map some)).flatMap
        DiscoveryYield.written = [framed message] := by
  have hsome : chunks ≠ [] := by
    rintro rfl
    have hwhole := hcut.whole
    rw [framed] at hwhole
    cases hwhole
  obtain ⟨houtcome, hfits⟩ := reading_fed hreach hresponse hcut.reads hsome [] hcut.whole
  have hwrite : (new message resolver).resume none = .yielded (.wantsWrite resolver (framed message))
      { resolver, state := .tcpRead [] } := by
    rw [new_tcp hscheme]
    rfl
  have hread : resume { resolver, state := .tcpRead [] } none =
      .yielded (.wantsRead resolver) { resolver, state := .tcpRead [] } := resume_reading_none rfl
  have hfirst : Fits factories (.wantsWrite resolver (framed message)) none :=
    ⟨hreach, .inl ⟨resolver, framed message, rfl, rfl⟩⟩
  have hyields : yields resume (new message resolver) (none :: none :: chunks.map some) =
      .wantsWrite resolver (framed message) :: .wantsRead resolver ::
        yields resume { resolver, state := .tcpRead [] } (chunks.map some) := by
    rw [yields, hwrite, Step.elim, yields, hread]
    rfl
  refine ⟨?_, ?_, ?_⟩
  · rw [outcome, hwrite]
    simp only
    rw [outcome, hread]
    exact houtcome
  · rw [hyields]
    exact .cons hfirst hfits
  · rw [hyields, List.flatMap_cons, List.flatMap_cons]
    have hreads : (yields resume { resolver, state := .tcpRead [] } (chunks.map some)).flatMap
        DiscoveryYield.written = [] := by
      rw [List.flatMap_eq_nil_iff]
      intro y hy
      have hread := yields_reading _ ⟨[], rfl⟩ y hy
      rw [hread]
      rfl
    rw [hreads]
    rfl

end DiscoveryDnsExchange
end

section
variable [DomainCrate] [IoHttpCrate]

def Exchange.query : Exchange → Bytes
  | dns qtype name _ => (queryMessage qtype name).toOption.getD []
  | hop _ _ _ | send _ => []

def serverNetwork (server : Bytes → Bytes) : Network
  | .dns qtype name _ => .ok (server (Exchange.dns qtype name exampleResolver).query)
  | .hop _ _ _ => .error ""
  | .send _ => .failed ""

/-- Against the server, a program that only asks the resolver goes through one turn for each question. -/
theorem reaches_server {factories : List String} {resolver : Url} (hscheme : resolver.scheme = "tcp")
    (hreach : ∃ key, StreamPoolKey.ofUrl resolver = some key ∧ key.scheme ∈ factories)
    {server : Bytes → Bytes} (hserver : ∀ message, (server message).length ≤ 65535) {α : Type}
    {post : α → Prop} {program : Protocol α}
    (hdns : program.Always (fun q => ∃ qtype name, q = .dns qtype name resolver) (fun _ _ => True) post)
    {cuts : List (List Bytes)}
    (hcuts : List.Forall₂ (fun q chunks => DiscoveryDnsExchange.Cut (server q.query) chunks)
      (program.asked (serverNetwork server)) cuts) :
    ∃ turns, Reaches exchanges program turns (.pure (program.eval (serverNetwork server))) ∧
      inputs turns = cuts.flatMap (fun chunks => none :: chunks.map some) ∧
      (∀ turn ∈ turns, List.Forall₂ (Fits factories) (turn.yields exchanges) turn.used) ∧
      turns.flatMap (fun turn => (turn.yields exchanges).flatMap DiscoveryYield.written) =
        (program.asked (serverNetwork server)).map fun q => framed q.query := by
  induction program generalizing cuts with
  | pure a =>
    obtain rfl := List.forall₂_nil_left_iff.mp hcuts
    exact ⟨[], .refl _, rfl, List.forall_mem_nil _, rfl⟩
  | ask q next ih =>
    obtain ⟨⟨qtype, name, rfl⟩, hnext⟩ := hdns
    obtain ⟨chunks, rest, hcut, hrest, rfl⟩ := List.forall₂_cons_left_iff.mp hcuts
    obtain ⟨turns, hreaches, hinputs, hfits, hwritten⟩ := ih _ (hnext _ trivial) hrest
    obtain ⟨houtcome, hyields, hwrites⟩ := DiscoveryDnsExchange.exchange_fed hscheme hreach
      (Exchange.dns qtype name resolver).query (hserver _) hcut
    let turn : Turn Exchange Exchange.Answer Bytes :=
      { question := .dns qtype name resolver
        answer := serverNetwork server (.dns qtype name resolver)
        used := none :: chunks.map some }
    have hturn : turn.Complete exchanges := houtcome
    refine ⟨turn :: turns, .turn hturn hreaches, ?_, List.forall_mem_cons.mpr ⟨hyields, hfits⟩, ?_⟩
    · rw [inputs, List.flatMap_cons, List.flatMap_cons, ← hinputs]
      rfl
    · rw [List.flatMap_cons, hwritten, Prog.asked, List.map_cons]
      exact congrArg (· ++ _) hwrites

end

section
variable [UrlCrate] [DomainCrate] [IoHttpCrate] [SerdeCrate] [DigestCrate]

namespace Job

def AsksResolver : Job → Prop
  | check _ | mx _ | mailconf _ | cname _ | srv _ => True
  | pacc _ | isp _ | dav _ _ | jmap _ | wellKnown _ _ | auth _ | oauthServer _ | oauthResource _ => False

theorem always_dns {job : Job} (h : job.AsksResolver) (client : DiscoveryComposeClientStd) :
    (job.program client).Always (fun q => ∃ qtype name, q = .dns qtype name client.dns)
      (fun _ _ => True) fun _ => True := by
  have hdns : ∀ qtype, AsksDns (fun q => ∃ qtype name, q = Exchange.dns qtype name client.dns) qtype
      client.dns := fun qtype name _ _ => ⟨qtype, name, rfl⟩
  cases job with
  | check domain => exact DiscoveryDnsProbe.always (hdns .soa)
  | mx domain => exact (DnsLookup.always .mx readMx (hdns .mx)).mono fun _ _ => trivial
  | mailconf domain => exact (DnsLookup.always .txt readTxt (hdns .txt)).bind fun _ _ => trivial
  | cname host => exact (DnsLookup.always .a readCname (hdns .a)).mono fun _ _ => trivial
  | srv domain => exact SrvSeries.always _ (hdns .srv) _
  | pacc | isp | dav | jmap | wellKnown | auth | oauthServer | oauthResource => exact h.elim

/-- Against a DNS server behind TCP, a job that only asks it puts each of its questions in one write, and ends
as its program does on the server's answers, however these are cut into reads. -/
theorem run_over_tcp (job : Job) (hjob : job.AsksResolver) (client : DiscoveryComposeClientStd)
    {host : String} {port : UInt16} (hscheme : client.dns.scheme = "tcp")
    (hhost : client.dns.host = some host) (hport : client.dns.port = some port)
    (server : Bytes → Bytes) (hserver : ∀ message, (server message).length ≤ 65535)
    {cuts : List (List Bytes)}
    (hcuts : List.Forall₂ (fun q chunks => DiscoveryDnsExchange.Cut (server q.query) chunks)
      ((job.program client).asked (serverNetwork server)) cuts) :
    let script := cuts.flatMap fun chunks => StreamIo.feed none :: chunks.map (StreamIo.feed ∘ some)
    (job.run client script).2 = some ((job.program client).eval (serverNetwork server)) ∧
      (job.run client script).1.map Delivery.bytes =
        ((job.program client).asked (serverNetwork server)).map fun q => framed q.query := by
  have hreach : ∃ key, StreamPoolKey.ofUrl client.dns = some key ∧
      key.scheme ∈ client.pool.factories := by
    refine ⟨{ scheme := "tcp", host := Text.toAsciiLowercase host, port }, ?_, ?_⟩
    · simp [StreamPoolKey.ofUrl, Url.portOrKnownDefault, hhost, hport, hscheme]
      decide
    · have htcp : "tcp" ∈ client.pool.factories := by
        unfold DiscoveryComposeClientStd.pool
        cases client.secureOnly <;> decide
      exact htcp
  obtain ⟨turns, hreaches, hinputs, hfits, hwritten⟩ :=
    reaches_server hscheme hreach hserver (always_dns hjob client) hcuts
  have hruns := (job.machine_performs client).runs hreaches
  have hyields := hruns.yields
  have hfed := fits_turns hfits
  rw [← hyields] at hfed
  have hdriver : ∀ pool y arg, DiscoveryStreamPool.Holds client.pool.factories pool →
      Fits client.pool.factories y arg →
      DiscoveryStreamPool.Holds client.pool.factories (runYield pool y (.feed arg)).1 ∧
        (runYield pool y (.feed arg)).2.1 = arg ∧
        (runYield pool y (.feed arg)).2.2.map Delivery.bytes = y.written :=
    fun _ _ _ hpool hy => runYield_fed hpool hy
  have hpump := pump_fed hdriver hruns.outcome hfed client.pool_holds
  have hscript : (inputs turns).map StreamIo.feed =
      cuts.flatMap fun chunks => StreamIo.feed none :: chunks.map (StreamIo.feed ∘ some) := by
    rw [hinputs, List.map_flatMap]
    simp only [List.map_cons, List.map_map]
  simp only
  rw [run_eq_pumped, ← hscript]
  refine ⟨hpump.1, ?_⟩
  rw [Machine.pumped, hpump.2, hyields, List.flatMap_assoc, hwritten]

end Job
end

theorem mailconf_over_tcp :
    letI := plainUrl
    letI := plainDns
    letI := plainHttp
    letI := plainSerde
    letI := DiscoveryPacc.vouchedCrates
    let client := DiscoveryComposeClientStd.new exampleResolver
    let answer := PlainDns.txtAnswer "example.org." ["mailconf=https://example.org:443/"]
    let script := [[(framed answer).take 1, (framed answer).drop 1]].flatMap fun chunks =>
      StreamIo.feed none :: chunks.map (StreamIo.feed ∘ some)
    (Job.run client (.mailconf "example.org") script).2 =
        some (((Job.mailconf "example.org").program client).eval (serverNetwork fun _ => answer)) ∧
      (Job.run client (.mailconf "example.org") script).1.map Delivery.bytes =
        [framed (Exchange.dns .txt "example.org" exampleResolver).query] := by
  let _ := plainUrl
  let _ := plainDns
  let _ := plainHttp
  let _ := plainSerde
  let _ := DiscoveryPacc.vouchedCrates
  let answer := PlainDns.txtAnswer "example.org." ["mailconf=https://example.org:443/"]
  have hcut : DiscoveryDnsExchange.Cut answer [(framed answer).take 1, (framed answer).drop 1] := by
    refine ⟨?_, ?_⟩
    · decide +kernel
    · decide +kernel
  exact Job.run_over_tcp (.mailconf "example.org") trivial
    (DiscoveryComposeClientStd.new exampleResolver) rfl rfl rfl (fun _ => answer)
    (fun _ => by decide +kernel) (.cons hcut .nil)

end PimDiscovery
