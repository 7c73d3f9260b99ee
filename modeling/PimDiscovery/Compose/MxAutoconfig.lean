import PimDiscovery.Compose.Merged
import PimDiscovery.Compose.Tagged
import PimDiscovery.PlainNet

/-! The search for the autoconfig document of the providers that the MX records of a domain name. -/

namespace PimDiscovery
open Interaction

section
variable [DomainCrate]

def mxAnswers (items : List MessageItem) : List Mx :=
  items.filterMap fun item =>
    match item with
    | .answer { rdata := .mx mx, .. } => some mx
    | _ => none

def Mx.precedes (a b : Mx) : Bool :=
  a.preference < b.preference ||
    (a.preference == b.preference && (DomainCrate.compareNames a.exchange b.exchange).isLE)

theorem Mx.precedes_iff {a b : Mx} : a.precedes b = true ↔ a.preference < b.preference ∨
    a.preference = b.preference ∧ (DomainCrate.compareNames a.exchange b.exchange).isLE = true := by
  simp only [precedes, Bool.or_eq_true, Bool.and_eq_true, decide_eq_true_eq, beq_iff_eq]

theorem readMx_perm (domain : String) (items : List MessageItem) :
    (readMx domain items).Perm (mxAnswers items) := List.mergeSort_perm _ Mx.precedes

variable [Std.TransCmp (DomainCrate.compareNames)]

theorem Mx.precedes_trans (a b c : Mx) (h : a.precedes b = true) (h' : b.precedes c = true) :
    a.precedes c = true := by
  rw [precedes_iff] at h h' ⊢
  rcases h with h | ⟨h, hname⟩
  · left
    rcases h' with h' | ⟨h', -⟩
    · exact UInt16.lt_trans h h'
    · rwa [← h']
  · rcases h' with h' | ⟨h', hname'⟩
    · left
      rwa [h]
    · exact .inr ⟨h.trans h', Std.TransCmp.isLE_trans hname hname'⟩

theorem Mx.precedes_total (a b : Mx) : (a.precedes b || b.precedes a) = true := by
  rw [Bool.or_eq_true, precedes_iff, precedes_iff]
  rcases Nat.lt_trichotomy a.preference.toNat b.preference.toNat with h | h | h
  · exact .inl (.inl (UInt16.lt_iff_toNat_lt.mpr h))
  · have hsame := UInt16.toNat_inj.mp h
    by_cases hname : (DomainCrate.compareNames a.exchange b.exchange).isLE = true
    · exact .inl (.inr ⟨hsame, hname⟩)
    · exact .inr (.inr ⟨hsame.symm, Ordering.isLE_of_eq_lt (Std.OrientedCmp.lt_of_not_isLE hname)⟩)
  · exact .inr (.inl (UInt16.lt_iff_toNat_lt.mpr h))

theorem readMx_sorted (domain : String) (items : List MessageItem) :
    (readMx domain items).Pairwise fun a b => a.preference ≤ b.preference := by
  have hsorted : (readMx domain items).Pairwise fun a b => a.precedes b = true :=
    List.pairwise_mergeSort Mx.precedes_trans Mx.precedes_total _
  refine hsorted.imp fun {a b} h => ?_
  rcases Mx.precedes_iff.mp h with h | ⟨h, -⟩
  · exact UInt16.le_of_lt h
  · exact UInt16.le_of_eq h

end

section
variable {α : Type} {lists : List (List α)}

theorem first_eq_nil : (lists.find? (!·.isEmpty)).getD [] = [] ↔ ∀ list ∈ lists, list = [] := by
  cases hfound : lists.find? (!·.isEmpty) with
  | none => simpa using hfound
  | some list =>
    have hmem := List.mem_of_find?_eq_some hfound
    have hsome := List.find?_some hfound
    refine ⟨fun hnil => ?_, fun hall => hall list hmem⟩
    rw [show list = [] from hnil] at hsome
    cases hsome

theorem mem_first {a : α} (h : a ∈ (lists.find? (!·.isEmpty)).getD []) : ∃ list ∈ lists, a ∈ list := by
  cases hfound : lists.find? (!·.isEmpty) with
  | none =>
    rw [hfound] at h
    cases h
  | some list =>
    rw [hfound] at h
    exact ⟨list, List.mem_of_find?_eq_some hfound, h⟩

end

section
variable [PslCrate]

theorem mxBases_eq (domain : String) (records : List Mx) :
    mxBases domain records =
      ((records.filterMap fun record => mxBaseDomain record.exchange.text).filter
        (· ≠ domain)).eraseDups := by
  have hnew := DiscoveryConfigCollector.foldl_append_new [] ((records.filterMap fun record =>
    mxBaseDomain record.exchange.text).filter (· ≠ domain))
  rw [List.foldl_filter, List.foldl_filterMap] at hnew
  simp only [List.not_mem_nil, not_false_eq_true, decide_true, List.filter_true, List.nil_append]
    at hnew
  rw [← hnew, mxBases]
  congr 1
  funext bases record
  cases mxBaseDomain record.exchange.text with
  | none => rfl
  | some base => by_cases hbase : base = domain <;> by_cases hmem : base ∈ bases <;> simp [hbase, hmem]

end

namespace Work
variable (o : ∀ job : Job, job.Answer)

theorem eval_run (job : Job) : (run job).eval o = o job := rfl

theorem asked_run (job : Job) : (run job).asked o = [job] := rfl

end Work

/-- A document that is looked for at a provider: at its ISP main URL, at the end of that name's alias
chain, in the ISPDB. -/
inductive MxFetch where
  | main (base : String)
  | aliased (base : String)
  | ispdb (base : String)
  deriving DecidableEq, Repr

namespace MxFetch

def ofBase (base : String) : List MxFetch := [main base, aliased base, ispdb base]

section
variable [UrlCrate] (client : DiscoveryComposeClientStd) (o : ∀ job : Job, job.Answer) (email : String)

def url : MxFetch → Option Url
  | main base => (DiscoveryIsp.hostUrl email ("autoconfig." ++ base) true).toOption
  | aliased base =>
    match o (.cname ("autoconfig." ++ base)) with
    | .ok (some target) => (DiscoveryIsp.hostUrl email target true).toOption
    | .ok none | .error _ => none
  | ispdb base => (DiscoveryIsp.dbUrl base true).toOption

def jobs (self : MxFetch) : List Job :=
  (match self with
    | aliased base => [.cname ("autoconfig." ++ base)]
    | main _ | ispdb _ => []) ++ (self.url o email).toList.map .isp

def configsAt (url : Url) : List DiscoveryServiceConfig :=
  match o (.isp url) with
  | .ok document => client.keepSecure (DiscoveryServiceConfig.fromAutoconfig document email .mx)
  | .error _ => []

def configs (self : MxFetch) : List DiscoveryServiceConfig :=
  match self.url o email with
  | some url => configsAt client o email url
  | none => []

theorem configs_source (self : MxFetch) :
    Reported (fun config => config.source = .mx) (self.configs client o email) := by
  unfold configs
  cases self.url o email with
  | none => exact .nil
  | some url =>
    simp only [configsAt]
    cases o (.isp url) with
    | error err => exact .nil
    | ok document =>
      exact client.keepSecure_reported (DiscoveryServiceConfig.fromAutoconfig_source document email .mx)

def run : MxFetch → Work (List DiscoveryServiceConfig)
  | main base =>
    client.runIspAt (DiscoveryIsp.hostUrl email ("autoconfig." ++ base) true) email .mx
  | aliased base => client.runIspAlias ("autoconfig." ++ base) email .mx
  | ispdb base => client.runIspAt (DiscoveryIsp.dbUrl base true) email .mx

theorem runIspAt_on (url : Except String Url) :
    (client.runIspAt url email .mx).eval o = (url.toOption.map (configsAt client o email)).getD [] ∧
    (client.runIspAt url email .mx).asked o = url.toOption.toList.map .isp := by
  cases url with
  | error err => exact ⟨rfl, rfl⟩
  | ok url =>
    have heval : (client.runIsp url email .mx).eval o = configsAt client o email url := by
      rw [DiscoveryComposeClientStd.runIsp, Prog.eval_bind, Work.eval_run, configsAt]
      cases o (.isp url) <;> rfl
    have hasked : (client.runIsp url email .mx).asked o = [.isp url] := by
      rw [DiscoveryComposeClientStd.runIsp, Prog.asked_bind, Work.eval_run, Work.asked_run]
      cases o (.isp url) <;> rfl
    exact ⟨heval, hasked⟩

theorem run_on (self : MxFetch) :
    (self.run client email).eval o = self.configs client o email ∧
      (self.run client email).asked o = self.jobs o email := by
  have hconfigs : ∀ url : Option Url, (url.map (configsAt client o email)).getD [] =
      match url with
      | some url => configsAt client o email url
      | none => [] := by
    rintro (_ | url) <;> rfl
  cases self with
  | main base =>
    obtain ⟨heval, hasked⟩ := runIspAt_on client o email
      (DiscoveryIsp.hostUrl email ("autoconfig." ++ base) true)
    exact ⟨heval.trans (hconfigs _), hasked⟩
  | ispdb base =>
    obtain ⟨heval, hasked⟩ := runIspAt_on client o email (DiscoveryIsp.dbUrl base true)
    exact ⟨heval.trans (hconfigs _), hasked⟩
  | aliased base =>
    rw [run, DiscoveryComposeClientStd.runIspAlias, Prog.eval_bind, Prog.asked_bind, Work.eval_run,
      Work.asked_run, configs, jobs, url]
    rcases o (.cname ("autoconfig." ++ base)) with err | _ | target
    · exact ⟨rfl, rfl⟩
    · exact ⟨rfl, rfl⟩
    · obtain ⟨heval, hasked⟩ := runIspAt_on client o email (DiscoveryIsp.hostUrl email target true)
      exact ⟨heval.trans (hconfigs _), congrArg ([.cname ("autoconfig." ++ base)] ++ ·) hasked⟩

/-- The fetches that are made: all up to the first one that gives configs. -/
def made (fetches : List MxFetch) : List MxFetch :=
  fetches.takeWhile (fun fetch => (fetch.configs client o email).isEmpty) ++
    (fetches.find? fun fetch => !(fetch.configs client o email).isEmpty).toList

def runFirst : List MxFetch → Work (List DiscoveryServiceConfig)
  | [] => pure []
  | fetch :: fetches => do
    let configs ← fetch.run client email
    if !configs.isEmpty then return configs
    runFirst fetches

theorem made_cons (fetch : MxFetch) (fetches : List MxFetch) :
    made client o email (fetch :: fetches) = fetch ::
      if (fetch.configs client o email).isEmpty then made client o email fetches else [] := by
  cases h : (fetch.configs client o email).isEmpty <;> simp [made, h]

theorem runFirst_on (fetches : List MxFetch) :
    (runFirst client email fetches).eval o =
        ((fetches.map (configs client o email)).find? (!·.isEmpty)).getD [] ∧
      (runFirst client email fetches).asked o =
        (made client o email fetches).flatMap (jobs o email) := by
  induction fetches with
  | nil => exact ⟨rfl, rfl⟩
  | cons fetch fetches ih =>
    obtain ⟨heval, hasked⟩ := fetch.run_on client o email
    rw [runFirst, Prog.eval_bind, Prog.asked_bind, heval, hasked, made_cons, List.map_cons]
    cases hempty : (fetch.configs client o email).isEmpty with
    | true =>
      rw [List.find?_cons_of_neg (by simp [hempty]), List.flatMap_cons]
      exact ⟨ih.1, congrArg (fetch.jobs o email ++ ·) ih.2⟩
    | false =>
      rw [List.find?_cons_of_pos (by simp [hempty])]
      exact ⟨rfl, rfl⟩

theorem tryBases_eq (bases : List String) :
    client.tryBases email bases = runFirst client email (bases.flatMap ofBase) := by
  induction bases with
  | nil => rfl
  | cons base bases ih =>
    rw [DiscoveryComposeClientStd.tryBases, ih]
    rfl

end
end MxFetch

namespace DiscoveryComposeClientStd
variable [UrlCrate] [PslCrate] [DomainCrate] [Std.TransCmp (DomainCrate.compareNames)]
variable (client : DiscoveryComposeClientStd) (o : ∀ job : Job, job.Answer) (domain email : String)

open MxFetch in
/-- The providers that the MX records name, the best record's first, are tried for a document each, and
the first document that gives configs is the result. -/
theorem runMxAutoconfig_tries {items : List MessageItem}
    (hmx : o (.mx domain) = .ok (readMx domain items)) :
    let records := readMx domain items
    let bases := ((records.filterMap fun record => mxBaseDomain record.exchange.text).filter
      (· ≠ domain)).eraseDups
    let fetches := bases.flatMap ofBase
    let result := (client.runMxAutoconfig domain email).eval o
    records.Perm (mxAnswers items) ∧
    (records.Pairwise fun a b => a.preference ≤ b.preference) ∧
    (client.runMxAutoconfig domain email).asked o =
      .mx domain :: (made client o email fetches).flatMap (jobs o email) ∧
    result = ((fetches.map (configs client o email)).find? (!·.isEmpty)).getD [] ∧
    (∀ config ∈ result, config.source = .mx) ∧
    (result = [] ↔ ∀ fetch ∈ fetches, fetch.configs client o email = []) := by
  intro records bases fetches result
  have hrun : (client.runMxAutoconfig domain email).eval o =
        (runFirst client email fetches).eval o ∧
      (client.runMxAutoconfig domain email).asked o =
        .mx domain :: (runFirst client email fetches).asked o := by
    rw [runMxAutoconfig, Prog.eval_bind, Prog.asked_bind, Work.eval_run, Work.asked_run, hmx]
    simp only [tryBases_eq, mxBases_eq]
    exact ⟨rfl, rfl⟩
  obtain ⟨heval, hasked⟩ := runFirst_on client o email fetches
  have hresult : result = ((fetches.map (configs client o email)).find? (!·.isEmpty)).getD [] :=
    hrun.1.trans heval
  refine ⟨readMx_perm domain items, readMx_sorted domain items, hrun.2.trans (by rw [hasked]), hresult,
    ?_, ?_⟩
  · intro config hconfig
    rw [hresult] at hconfig
    obtain ⟨found, hfound, hconfig⟩ := mem_first hconfig
    obtain ⟨fetch, -, rfl⟩ := List.mem_map.mp hfound
    exact fetch.configs_source client o email config hconfig
  · rw [hresult, first_eq_nil, List.forall_mem_map]

end DiscoveryComposeClientStd

theorem plainDns_transCmp : letI := plainDns; Std.TransCmp (DomainCrate.compareNames) := by
  have h : Std.TransCmp (compareOn DnsName.text) := inferInstance
  exact h

def mxRecord (preference : UInt16) (exchange : String) : Mx := ⟨preference, ⟨exchange, false⟩⟩

def mxAnswer (record : Mx) : MessageItem :=
  .answer { rname := ⟨"example.org.", false⟩, rdata := .mx record }

def mxNet : ∀ job : Job, job.Answer
  | .mx _ => .ok [mxRecord 10 "mx1.host.test.", mxRecord 20 "mx.Backup.test."]
  | .isp url =>
    if url.host = some "autoconfig.backup.test" then .ok
      { version := "1.1"
        emailProvider :=
          { id := "backup.test", domain := ["backup.test"], displayName := none
            displayShortName := none
            incomingServer :=
              [{ type := .imap, hostname := some "imap.backup.test", port := none
                 socketType := none, username := none, authentication := [.passwordCleartext]
                 pop3 := none }]
            outgoingServer := [], documentation := [] }
        oauth2 := none }
    else .error .utf8
  | job => DiscoveryComposeClientStd.silentNet job

theorem mx_backup_tried_last :
    letI := plainUrl
    letI := plainPsl
    let client := DiscoveryComposeClientStd.new exampleResolver
    ((client.runMxAutoconfig "example.org" "user@example.org").eval mxNet).map (·.endpoint) =
        [.tcp "imap.backup.test" 993 .tls] ∧
      ((client.runMxAutoconfig "example.org" "user@example.org").asked mxNet).length = 5 := by
  let _ := plainUrl
  let _ := plainPsl
  let _ := plainDns
  have _ := plainDns_transCmp
  have hsorted : readMx "example.org"
      [mxAnswer (mxRecord 20 "mx.Backup.test."), mxAnswer (mxRecord 10 "mx1.host.test.")] =
        [mxRecord 10 "mx1.host.test.", mxRecord 20 "mx.Backup.test."] := by
    simp [readMx, mxAnswer, mxRecord, List.mergeSort]
  have hnet : mxNet (.mx "example.org") = .ok (readMx "example.org"
      [mxAnswer (mxRecord 20 "mx.Backup.test."), mxAnswer (mxRecord 10 "mx1.host.test.")]) := by
    rw [hsorted]
    rfl
  obtain ⟨-, -, hasked, hresult, -⟩ := DiscoveryComposeClientStd.runMxAutoconfig_tries
    (.new exampleResolver) mxNet "example.org" "user@example.org" hnet
  simp only
  rw [hasked, hresult, hsorted]
  decide +kernel

end PimDiscovery
