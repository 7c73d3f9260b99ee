import PimDiscovery.Autoconfig.Aliases
import PimDiscovery.Compose.Machines
import PimDiscovery.Compose.MxAutoconfig
import PimDiscovery.Coroutines.Respected
import PimDiscovery.Pacc.Vouched
import PimDiscovery.Rfc6764.FirstCandidate

/-! A resolver may rotate the records of its answers: no coroutine of the client sees the order of SRV, MX or
CNAME records, as long as their own order leaves no tie. -/

namespace PimDiscovery
open Interaction

def cnameAliases (items : List MessageItem) : List (String × String) :=
  items.filterMap fun item =>
    match item with
    | .answer { rname, rdata := .cname name } =>
      some (normalizeName rname.text, normalizeName name.text)
    | _ => none

theorem mergeSort_eq_of_perm {α : Type} {le : α → α → Bool}
    (htrans : ∀ a b c, le a b = true → le b c = true → le a c = true)
    (htotal : ∀ a b, (le a b || le b a) = true) {xs ys : List α} (h : xs.Perm ys)
    (hties : ∀ a ∈ xs, ∀ b ∈ xs, le a b = true → le b a = true → a = b) :
    xs.mergeSort le = ys.mergeSort le := by
  have hperm : (xs.mergeSort le).Perm (ys.mergeSort le) :=
    (List.mergeSort_perm xs le).trans (h.trans (List.mergeSort_perm ys le).symm)
  refine List.Perm.eq_of_pairwise ?_ (List.pairwise_mergeSort htrans htotal xs)
    (List.pairwise_mergeSort htrans htotal ys) hperm
  intro a b ha hb hab hba
  have hb' := h.mem_iff.mpr (List.mem_mergeSort.mp hb)
  exact hties a (List.mem_mergeSort.mp ha) b hb' hab hba

section
variable [DomainCrate]

/-- The same records in another order, none of which tie; the TXT records that are asked for stay in order. -/
def Reordering : QType → List MessageItem → List MessageItem → Prop
  | .srv, items, items' => items.Perm items' ∧
    ∀ a ∈ srvAnswers items, ∀ b ∈ srvAnswers items, a.precedes b = true → b.precedes a = true → a = b
  | .mx, items, items' => items.Perm items' ∧
    ∀ a ∈ mxAnswers items, ∀ b ∈ mxAnswers items, a.precedes b = true → b.precedes a = true → a = b
  | .a, items, items' => items.Perm items' ∧ ((cnameAliases items).map Prod.fst).Nodup
  | .txt, items, items' => readTxt "" items = readTxt "" items'
  | .soa, items, items' => items = items'

/-- Answers that differ in the order of their records at most. The probe reads no records. -/
def Exchange.Reordered : (q : Exchange) → q.Answer → q.Answer → Prop
  | .dns qtype _ _, a, b => a = b ∨ qtype ≠ .soa ∧ ∃ message message' items items',
    a = .ok message ∧ b = .ok message' ∧ DomainCrate.parseMessage message = .ok items ∧
      DomainCrate.parseMessage message' = .ok items' ∧ Reordering qtype items items'
  | .hop _ _ _, a, b => a = b
  | .send _, a, b => a = b

theorem readSrv_reordered {items items' : List MessageItem} (h : Reordering .srv items items')
    (domain : String) : readSrv domain items = readSrv domain items' :=
  mergeSort_eq_of_perm Srv.precedes_trans Srv.precedes_total (h.1.filterMap _) h.2

theorem readMx_reordered [Std.TransCmp (DomainCrate.compareNames)] {items items' : List MessageItem}
    (h : Reordering .mx items items') (domain : String) : readMx domain items = readMx domain items' :=
  mergeSort_eq_of_perm Mx.precedes_trans Mx.precedes_total (h.1.filterMap _) h.2

theorem readCname_reordered {items items' : List MessageItem} (h : Reordering .a items items')
    (domain : String) : readCname domain items = readCname domain items' :=
  (follow_perm (h.1.filterMap _).symm h.2).symm

theorem DnsLookup.respects_reordered {ρ : Type} {qtype : QType}
    {read : String → List MessageItem → ρ} {domain : String} (resolver : Url)
    (hread : ∀ items items', Reordering qtype items items' → read domain items = read domain items') :
    (program qtype read domain resolver).Respects Exchange.Reordered := by
  unfold program
  cases queryMessage qtype domain with
  | error err => trivial
  | ok message =>
    apply Prog.Respects.ask_pure
    intro a b hab
    rcases hab with rfl | ⟨-, message, message', items, items', rfl, rfl, hitems, hitems', hsame⟩
    · rfl
    · unfold finish
      simp only [hitems, hitems', hread items items' hsame]

theorem DiscoveryDnsProbe.respects_reordered (domain : String) (resolver : Url) :
    (program domain resolver).Respects Exchange.Reordered := by
  unfold program
  cases queryMessage .soa domain with
  | error err => trivial
  | ok message =>
    apply Prog.Respects.ask_pure
    intro a b hab
    rcases hab with rfl | ⟨hsoa, -⟩
    · rfl
    · exact absurd rfl hsoa

theorem respects_of_noDns {α : Type} {post : α → Prop} {program : Protocol α}
    (h : program.Always DiscoveryDavResolve.NoDns (fun _ _ => True) post) :
    program.Respects Exchange.Reordered := by
  refine Prog.respects_of_always (fun q hq a b hab => ?_) h
  cases q with
  | dns qtype name resolver => exact absurd rfl (hq qtype name resolver)
  | hop walk hops request => exact hab
  | send request => exact hab

theorem HttpFetch.respects_reordered {ρ : Type} (request : Url → HttpRequest)
    (finish : HttpSendEnd → ρ) (url : Url) :
    (program request finish url).Respects Exchange.Reordered :=
  Prog.Respects.ask_pure fun _ _ hab => congrArg finish hab

variable [IoHttpCrate] [UrlCrate] [SerdeCrate]

theorem respected_reordered [Std.TransCmp (DomainCrate.compareNames)] :
    Respected Exchange.Reordered where
  probe := DiscoveryDnsProbe.respects_reordered
  srv qname resolver := DnsLookup.respects_reordered resolver fun _ _ hsame => readSrv_reordered hsame qname
  mx domain resolver := DnsLookup.respects_reordered resolver fun _ _ hsame => readMx_reordered hsame domain
  cname host resolver := DnsLookup.respects_reordered resolver fun _ _ hsame => readCname_reordered hsame host
  txt _ resolver := DnsLookup.respects_reordered resolver fun _ _ hsame => hsame
  get := HttpFetch.respects_reordered _ _
  context walk _ := respects_of_noDns (DiscoveryDavContext.always walk
    DiscoveryDavResolve.walksStay_noDns trivial)
  wellKnown _ _ := respects_of_noDns (DiscoveryWellKnown.always
    DiscoveryDavResolve.walksStay_noDns fun _ _ => trivial)
  session _ := respects_of_noDns (DiscoveryJmapWellKnown.always
    DiscoveryDavResolve.walksStay_noDns trivial)
  schemes _ := (respects_of_noDns (DiscoveryHttpWalk.always .schemes
    DiscoveryDavResolve.walksStay_noDns trivial)).bind fun _ => trivial

variable [DigestCrate]

theorem Job.respects_reordered [Std.TransCmp (DomainCrate.compareNames)]
    (client : DiscoveryComposeClientStd) (job : Job) :
    (job.program client).Respects Exchange.Reordered :=
  respected_reordered.job client job (fun _ _ => HttpFetch.respects_reordered _ _ _)
    fun _ _ => HttpFetch.respects_reordered _ _ _

/-- Two runs of a job over servers whose DNS answers differ in the order of their records ask the same
questions and end alike. -/
theorem Job.outcome_reordered [Std.TransCmp (DomainCrate.compareNames)]
    (client : DiscoveryComposeClientStd) (job : Job) {o o' : Network}
    (hsame : ∀ q : Exchange, q.Reordered (o q) (o' q)) {args args' : List (Option Bytes)}
    (hargs : Serves exchanges o (job.program client) args)
    (hargs' : Serves exchanges o' (job.program client) args') :
    (job.program client).asked o = (job.program client).asked o' ∧ ∃ result,
      outcome (job.machine client).resume (job.machine client).start (none :: args) = some result ∧
      outcome (job.machine client).resume (job.machine client).start (none :: args') = some result := by
  obtain ⟨heval, hasked⟩ := (job.respects_reordered client).eval_eq hsame
  have hperforms := job.machine_performs client
  refine ⟨hasked, _, hperforms.outcome_eq hargs, ?_⟩
  rw [heval]
  exact hperforms.outcome_eq hargs'

end

/-! Mail hosts whose records the resolver rotates. -/

def rotatedHosts : List (UInt8 × UInt8 × UInt16 × String) :=
  [(10, 0, 993, "mail.example.org."), (20, 0, 993, "backup.example.org.")]

def rotatedNetwork (hosts : List (UInt8 × UInt8 × UInt16 × String)) : Network
  | .dns .srv _ _ => .ok (PlainDns.srvAnswer "example.org." hosts)
  | .dns _ _ _ => .error .eof
  | .hop _ _ _ => .error "unexpected EOF"
  | .send _ => .failed "unexpected EOF"

def rotatedReplies (hosts : List (UInt8 × UInt8 × UInt16 × String)) : List (List (Option Bytes)) :=
  List.replicate 4 [none, some (framed (PlainDns.srvAnswer "example.org." hosts))]

theorem rotatedNetwork_reordered :
    letI := plainDns
    ∀ q : Exchange, q.Reordered (rotatedNetwork rotatedHosts q) (rotatedNetwork rotatedHosts.reverse q) := by
  let _ := plainDns
  have hitems : ∃ items items',
      PlainDns.parseMessage (PlainDns.srvAnswer "example.org." rotatedHosts) = .ok items ∧
      PlainDns.parseMessage (PlainDns.srvAnswer "example.org." rotatedHosts.reverse) = .ok items' ∧
      Reordering .srv items items' := by
    refine ⟨_, _, rfl, rfl, ?_, ?_⟩
    · decide +kernel
    · decide +kernel
  obtain ⟨items, items', hmessage, hmessage', hsame⟩ := hitems
  intro q
  cases q with
  | dns qtype name resolver =>
    cases qtype with
    | srv => exact .inr ⟨by decide, _, _, items, items', rfl, rfl, hmessage, hmessage', hsame⟩
    | a | mx | soa | txt => exact .inl rfl
  | hop walk hops request => exact rfl
  | send request => exact rfl

theorem srv_outcome_rotated :
    letI := plainUrl
    letI := plainDns
    letI := plainHttp
    letI := plainSerde
    letI := DiscoveryPacc.vouchedCrates
    let client := DiscoveryComposeClientStd.new exampleResolver
    let machine := (Job.srv "example.org").machine client
    ∃ result,
      outcome machine.resume machine.start (none :: (rotatedReplies rotatedHosts).flatten) = some result ∧
      outcome machine.resume machine.start (none :: (rotatedReplies rotatedHosts.reverse).flatten) =
        some result := by
  let _ := plainUrl
  let _ := plainDns
  let _ := plainHttp
  let _ := plainSerde
  let _ := DiscoveryPacc.vouchedCrates
  let client := DiscoveryComposeClientStd.new exampleResolver
  have hserves : serves exchanges (rotatedNetwork rotatedHosts) ((Job.srv "example.org").program client)
      (rotatedReplies rotatedHosts) = true := by
    decide +kernel
  have hserves' : serves exchanges (rotatedNetwork rotatedHosts.reverse)
      ((Job.srv "example.org").program client) (rotatedReplies rotatedHosts.reverse) = true := by
    decide +kernel
  have _ := plainDns_transCmp
  exact (Job.outcome_reordered client (.srv "example.org") rotatedNetwork_reordered
    (serves_sound hserves) (serves_sound hserves')).2

end PimDiscovery
