import PimDiscovery.Compose.Config
import PimDiscovery.PlainNet
import PimDiscovery.Rfc6186.Discover

/-! What a run of the RFC 6186 lookups reports of the four answers, and the configs of a report. -/

namespace PimDiscovery
open Interaction

/-- The first of the non-root records with the least priority and, among these, the greatest weight;
`none` when every record is the root. -/
def Srv.IsFirstBest (records : List Srv) : Option Srv → Prop
  | none => ∀ srv ∈ records, srv.name.isRoot = true
  | some best => best.name.isRoot = false ∧ ∃ before after, records = before ++ best :: after ∧
      (∀ srv ∈ before, srv.name.isRoot = false →
        best.priority < srv.priority ∨ best.priority = srv.priority ∧ srv.weight < best.weight) ∧
      ∀ srv ∈ after, srv.name.isRoot = false →
        best.priority < srv.priority ∨ best.priority = srv.priority ∧ srv.weight ≤ best.weight

theorem Srv.IsFirstBest.of_records {records : List Srv} {best : Option Srv}
    (h : Srv.IsFirstBest records best) {P : Srv → Prop}
    (hrecords : ∀ srv ∈ records, srv.name.isRoot = false → P srv) : ∀ srv ∈ best, P srv := by
  rintro srv rfl
  obtain ⟨hroot, before, after, rfl, -⟩ := h
  exact hrecords srv (List.mem_append_right _ List.mem_cons_self) hroot

theorem Srv.precedes_iff (a b : Srv) : a.precedes b = true ↔
    a.priority < b.priority ∨ a.priority = b.priority ∧ b.weight ≤ a.weight := by
  simp [Srv.precedes]

theorem Srv.not_precedes_iff (a b : Srv) : a.precedes b = false ↔
    b.priority < a.priority ∨ b.priority = a.priority ∧ a.weight < b.weight := by
  rw [← Bool.not_eq_true, Srv.precedes_iff]
  simp only [UInt16.lt_iff_toNat_lt, UInt16.le_iff_toNat_le, ← UInt16.toNat_inj]
  omega

/-- The head of the sorted records stands first among its equals: the sort is stable. -/
theorem Srv.head_sorted {records : List Srv} {best : Srv}
    (h : (records.mergeSort Srv.precedes).head? = some best) :
    ∃ before after, records = before ++ best :: after ∧
      (∀ srv ∈ before, srv.precedes best = false) ∧ ∀ srv ∈ after, best.precedes srv = true := by
  induction records with
  | nil => simp at h
  | cons srv records ih =>
    obtain ⟨left, right, hcons, htail, hleft⟩ :=
      List.mergeSort_cons Srv.precedes_trans Srv.precedes_total srv records
    rw [hcons] at h
    cases left with
    | nil =>
      obtain rfl : srv = best := by simpa using h
      refine ⟨[], records, rfl, List.forall_mem_nil _, fun other hother => ?_⟩
      have hsorted : ((srv :: records).mergeSort Srv.precedes).Pairwise fun a b => a.precedes b = true :=
        List.pairwise_mergeSort Srv.precedes_trans Srv.precedes_total _
      rw [hcons] at hsorted
      apply List.rel_of_pairwise_cons hsorted
      rw [List.nil_append] at htail
      rw [← htail]
      exact List.mem_mergeSort.mpr hother
    | cons first left =>
      obtain rfl : first = best := by simpa using h
      obtain ⟨before, after, rfl, hbefore, hafter⟩ := ih (by rw [htail]; rfl)
      have hsrv : srv.precedes first = false := by simpa using hleft first (by simp)
      exact ⟨srv :: before, after, rfl, List.forall_mem_cons.mpr ⟨hsrv, hbefore⟩, hafter⟩

theorem Srv.isFirstBest_sorted (records : List Srv) :
    Srv.IsFirstBest records
      ((records.filter (!·.name.isRoot)).mergeSort Srv.precedes).head? := by
  cases h : ((records.filter (!·.name.isRoot)).mergeSort Srv.precedes).head? with
  | none =>
    have hnil : records.filter (!·.name.isRoot) = [] := by
      rw [List.head?_eq_none_iff] at h
      rw [← List.length_eq_zero_iff, ← List.length_mergeSort, h, List.length_nil]
    intro srv hsrv
    simpa using List.filter_eq_nil_iff.mp hnil srv hsrv
  | some best =>
    obtain ⟨before, after, hsplit, hbefore, hafter⟩ := Srv.head_sorted h
    obtain ⟨left, right, rfl, rfl, hright⟩ := List.filter_eq_append_iff.mp hsplit
    obtain ⟨roots, right', rfl, hroots, hbest, rfl⟩ := List.filter_eq_cons_iff.mp hright
    refine ⟨by simpa using hbest, left ++ roots, right', by simp, ?_, ?_⟩
    · intro srv hsrv hroot
      rcases List.mem_append.mp hsrv with hsrv | hsrv
      · exact (Srv.not_precedes_iff srv best).mp
          (hbefore srv (List.mem_filter.mpr ⟨hsrv, by simp [hroot]⟩))
      · exact absurd hroot (by simpa using hroots srv hsrv)
    · intro srv hsrv hroot
      exact (Srv.precedes_iff best srv).mp
        (hafter srv (List.mem_filter.mpr ⟨hsrv, by simp [hroot]⟩))

def srvRecords (items : List MessageItem) : List Srv :=
  items.filterMap fun item =>
    match item with
    | .answer { rdata := .srv srv, .. } => some srv
    | _ => none

theorem srvAnswers_eq (items : List MessageItem) :
    srvAnswers items = (srvRecords items).filter (!·.name.isRoot) := by
  unfold srvAnswers srvRecords
  rw [List.filter_filterMap]
  congr 1
  funext item
  rcases item with ⟨_, _ | srv | _ | _ | _⟩ | _
  · rfl
  · cases h : srv.name.isRoot <;> simp [h, Option.filter]
  · rfl
  · rfl
  · rfl
  · rfl

section
variable [DomainCrate]

def Network.srvRecords (o : Network) (qname : String) (resolver : Url) :
    Except DnsLookupError (List Srv) :=
  o.lookup .srv (fun _ items => PimDiscovery.srvRecords items) qname resolver

theorem Network.lookup_srvRecords (o : Network) (qname : String) (resolver : Url) :
    o.lookup .srv readSrv qname resolver = (o.srvRecords qname resolver).map
      fun records => (records.filter (!·.name.isRoot)).mergeSort Srv.precedes := by
  have hread : readSrv = fun _ items => ((PimDiscovery.srvRecords items).filter
      (!·.name.isRoot)).mergeSort Srv.precedes := by
    funext name items
    rw [readSrv, srvAnswers_eq]
  rw [hread]
  exact o.lookup_map .srv (fun _ items => PimDiscovery.srvRecords items)
    (fun records : List Srv => (records.filter (!·.name.isRoot)).mergeSort Srv.precedes) qname resolver

theorem Network.lookup_of_answered {o : Network} {qname : String} {resolver : Url}
    {records : List Srv} (h : o.srvRecords qname resolver = .ok records) :
    o.lookup .srv readSrv qname resolver =
      .ok ((records.filter (!·.name.isRoot)).mergeSort Srv.precedes) := by
  rw [o.lookup_srvRecords, h]
  rfl

namespace SrvSeries
variable {ρ : Type} {o : Network} {domain : String} {resolver : Url}

theorem eval_program_error {before : List (SrvLookup ρ)} (after : List (SrvLookup ρ))
    {lookup : SrvLookup ρ} {err : DnsLookupError}
    (hbefore : ∀ l ∈ before, ∃ records, o.srvRecords (l.qname domain) resolver = .ok records)
    (herr : o.srvRecords (lookup.qname domain) resolver = .error err) (report : ρ) :
    (program domain resolver (before ++ lookup :: after) report).eval o =
        .error (lookup.label, err) ∧
      ∀ q ∈ (program domain resolver (before ++ lookup :: after) report).asked o,
        ∃ l ∈ before ++ [lookup], q = .dns .srv (l.qname domain) resolver := by
  induction before generalizing report with
  | nil =>
    have hlookup : o.lookup .srv readSrv (lookup.qname domain) resolver = .error err := by
      rw [Network.lookup_srvRecords, herr]
      rfl
    refine ⟨?_, ?_⟩
    · rw [List.nil_append, eval_program_lookup, hlookup]
      rfl
    · intro q hq
      rw [List.nil_append, program, Prog.asked_bind, DiscoveryDnsSrv.program, DnsLookup.eval_program,
        hlookup, continueWith, Prog.asked, List.append_nil] at hq
      exact ⟨lookup, by simp, DnsLookup.asked_program o _ _ _ _ q hq⟩
  | cons first before ih =>
    obtain ⟨hfirst, hbefore⟩ := List.forall_mem_cons.mp hbefore
    obtain ⟨records, hrecords⟩ := hfirst
    have hlookup := Network.lookup_of_answered hrecords
    -- This lookup answers, so the run goes on with its slot filled.
    obtain ⟨heval, hasked⟩ := ih hbefore (first.set report
      (((records.filter (!·.name.isRoot)).mergeSort Srv.precedes).head?.map intoService))
    refine ⟨?_, ?_⟩
    · rw [List.cons_append, eval_program_lookup, hlookup]
      exact heval
    · intro q hq
      rw [List.cons_append, program, Prog.asked_bind, DiscoveryDnsSrv.program,
        DnsLookup.eval_program, hlookup, continueWith] at hq
      rcases List.mem_append.mp hq with hq | hq
      · exact ⟨first, by simp, DnsLookup.asked_program o _ _ _ _ q hq⟩
      · obtain ⟨l, hl, rfl⟩ := hasked q hq
        exact ⟨l, List.mem_cons_of_mem _ hl, rfl⟩

end SrvSeries
end

/-- The config of one SRV record: its port, and its target without trailing dots. -/
def srvConfig (service : DiscoveryService) (security : DiscoverySecurity) (record : Srv) :
    DiscoveryServiceConfig where
  service
  endpoint := .tcp (Text.trimEndMatches record.name.text '.') record.port security
  username := none
  auth := [.password]
  source := .srv
  resolved := false

theorem fromSrv_eq {imap imaps submission submissions : Option Srv}
    (h : ∀ slot ∈ [imap, imaps, submission, submissions], ∀ srv ∈ slot,
      Text.trimEndMatches srv.name.text '.' ≠ "") :
    DiscoveryServiceConfig.fromSrv
        { imap := imap.map intoService, imaps := imaps.map intoService
          submission := submission.map intoService, submissions := submissions.map intoService } =
      (imaps.map (srvConfig .imap .tls)).toList ++ (imap.map (srvConfig .imap .starttls)).toList ++
        (submissions.map (srvConfig .smtp .tls)).toList ++
        (submission.map (srvConfig .smtp .starttls)).toList := by
  have hhost : ∀ slot ∈ [imap, imaps, submission, submissions], ∀ srv ∈ slot,
      (intoService srv).host.isEmpty = false := by
    intro slot hslot srv hsrv
    rw [Bool.eq_false_iff, ne_eq, String.isEmpty_iff]
    exact h slot hslot srv hsrv
  cases imaps <;> cases imap <;> cases submissions <;> cases submission <;>
    simp_all [DiscoveryServiceConfig.fromSrv, srvConfig, intoService]

open DiscoverySrv in
/-- The four lookups fill their own slots with their best records, and the report lists them as
configs; a lookup that fails ends the run. -/
theorem discoverySrv_report [DomainCrate] [IoHttpCrate] (domain : String) (resolver : Url)
    (o : Network) (args : List (Option Bytes))
    (hserves : Serves exchanges o (program domain resolver) args) :
    (∀ imapRecords imapsRecords submissionRecords submissionsRecords,
      o.srvRecords (imap.qname (Text.trimMatches domain '.')) resolver = .ok imapRecords →
      o.srvRecords (imaps.qname (Text.trimMatches domain '.')) resolver = .ok imapsRecords →
      o.srvRecords (submission.qname (Text.trimMatches domain '.')) resolver =
        .ok submissionRecords →
      o.srvRecords (submissions.qname (Text.trimMatches domain '.')) resolver =
        .ok submissionsRecords →
      ∃ bestImap bestImaps bestSubmission bestSubmissions : Option Srv,
        Srv.IsFirstBest imapRecords bestImap ∧ Srv.IsFirstBest imapsRecords bestImaps ∧
        Srv.IsFirstBest submissionRecords bestSubmission ∧
        Srv.IsFirstBest submissionsRecords bestSubmissions ∧
        let report : DiscoverySrvReport :=
          { imap := bestImap.map intoService, imaps := bestImaps.map intoService
            submission := bestSubmission.map intoService
            submissions := bestSubmissions.map intoService }
        outcome resume (new domain resolver) (none :: args) = some (.ok report) ∧
        ((∀ records ∈ [imapRecords, imapsRecords, submissionRecords, submissionsRecords],
            ∀ srv ∈ records, srv.name.isRoot = false →
              Text.trimEndMatches srv.name.text '.' ≠ "") →
          DiscoveryServiceConfig.fromSrv report =
            (bestImaps.map (srvConfig .imap .tls)).toList ++
              (bestImap.map (srvConfig .imap .starttls)).toList ++
              (bestSubmissions.map (srvConfig .smtp .tls)).toList ++
              (bestSubmission.map (srvConfig .smtp .starttls)).toList)) ∧
    ∀ before lookup after err,
      [imap, imaps, submission, submissions] = before ++ lookup :: after →
      (∀ l ∈ before, ∃ records,
        o.srvRecords (l.qname (Text.trimMatches domain '.')) resolver = .ok records) →
      o.srvRecords (lookup.qname (Text.trimMatches domain '.')) resolver = .error err →
      outcome resume (new domain resolver) (none :: args) = some (.error (lookup.label, err)) ∧
      ∀ y ∈ yields resume (new domain resolver) (none :: args), ∃ l ∈ before ++ [lookup],
        ∃ used, y ∈ yields
          (exchanges.resume (.dns .srv (l.qname (Text.trimMatches domain '.')) resolver))
          (exchanges.start (.dns .srv (l.qname (Text.trimMatches domain '.')) resolver))
          (none :: used) := by
  have hend : outcome resume (new domain resolver) (none :: args) =
      some ((program domain resolver).eval o) := refines.outcome_eq (toProc_new ..) hserves
  refine ⟨?_, ?_⟩
  · intro imapRecords imapsRecords submissionRecords submissionsRecords himap himaps hsubmission
      hsubmissions
    let best (records : List Srv) : Option Srv :=
      ((records.filter (!·.name.isRoot)).mergeSort Srv.precedes).head?
    have hbest : ∀ records, Srv.IsFirstBest records (best records) := Srv.isFirstBest_sorted
    refine ⟨best imapRecords, best imapsRecords, best submissionRecords, best submissionsRecords,
      hbest _, hbest _, hbest _, hbest _, ?_, ?_⟩
    -- All four lookups answer: each fills its slot with the head of the sorted records.
    · rw [hend, program, SrvSeries.eval_program_lookup, Network.lookup_of_answered himap,
        SrvSeries.continueWith, SrvSeries.eval_program_lookup, Network.lookup_of_answered himaps,
        SrvSeries.continueWith, SrvSeries.eval_program_lookup, Network.lookup_of_answered hsubmission,
        SrvSeries.continueWith, SrvSeries.eval_program_lookup, Network.lookup_of_answered hsubmissions,
        SrvSeries.continueWith]
      rfl
    · intro hprint
      apply fromSrv_eq
      simp only [List.forall_mem_cons] at hprint ⊢
      obtain ⟨h1, h2, h3, h4, -⟩ := hprint
      exact ⟨(hbest _).of_records h1, (hbest _).of_records h2, (hbest _).of_records h3,
        (hbest _).of_records h4, List.forall_mem_nil _⟩
  -- The first lookup that fails ends the run: the later ones are never asked.
  · intro before lookup after err hsplit hbefore herr
    obtain ⟨heval, hasked⟩ := SrvSeries.eval_program_error after hbefore herr emptyReport
    rw [← hsplit] at heval hasked
    refine ⟨?_, ?_⟩
    · rw [hend]
      exact congrArg some heval
    · intro y hy
      obtain ⟨q, hq, used, hy⟩ := refines.yields (toProc_new ..) hserves hy
      obtain ⟨l, hl, rfl⟩ := hasked q hq
      exact ⟨l, hl, used, hy⟩

def mailAnswer (name : String) : Bytes :=
  PlainDns.srvAnswer (name ++ ".") (
    if name = "_imap._tcp.example.org" then
      [(10, 0, 143, "a.example.org."), (0, 0, 143, "."), (5, 2, 143, "b.example.org."),
        (5, 2, 143, "c.example.org.")]
    else if name = "_imaps._tcp.example.org" then [(0, 0, 993, ".")]
    else [])

def mailRecords : List Srv :=
  [⟨10, 0, 143, ⟨"a.example.org", false⟩⟩, ⟨0, 0, 143, ⟨"", true⟩⟩,
    ⟨5, 2, 143, ⟨"b.example.org", false⟩⟩, ⟨5, 2, 143, ⟨"c.example.org", false⟩⟩]

def mailNetwork : Network
  | .dns _ name _ => .ok (mailAnswer name)
  | .hop _ _ _ => .error "unexpected EOF"
  | .send _ => .failed "unexpected EOF"

def mailReplies : List (List (Option Bytes)) :=
  ["_imap", "_imaps", "_submission", "_submissions"].map fun label =>
    [none, some (framed (mailAnswer (label ++ "._tcp.example.org")))]

open DiscoverySrv in
theorem discoverySrv_report_mail :
    letI := plainDns
    letI := plainHttp
    ∃ best, Srv.IsFirstBest mailRecords best ∧
      outcome resume (new "example.org" exampleResolver) (none :: mailReplies.flatten) =
        some (.ok { emptyReport with imap := best.map intoService }) := by
  let _ := plainDns
  let _ := plainHttp
  have hserves : serves exchanges mailNetwork (program "example.org" exampleResolver) mailReplies =
      true := by
    decide +kernel
  obtain ⟨bestImap, bestImaps, bestSubmission, bestSubmissions, himap, himaps, hsubmission,
    hsubmissions, hend, -⟩ :=
    (discoverySrv_report "example.org" exampleResolver mailNetwork mailReplies.flatten
      (serves_sound hserves)).1 mailRecords [⟨0, 0, 993, ⟨"", true⟩⟩] [] [] (by decide +kernel)
      (by decide +kernel) (by decide +kernel) (by decide +kernel)
  have hroot : ∀ {records : List Srv} {best : Option Srv},
      (∀ srv ∈ records, srv.name.isRoot = true) → Srv.IsFirstBest records best → best = none := by
    intro records best hrecords hbest
    cases best with
    | none => rfl
    | some best =>
      obtain ⟨hfalse, before, after, rfl, -⟩ := hbest
      exact absurd (hrecords best (by simp)) (by simp [hfalse])
  obtain rfl := hroot (by simp) himaps
  obtain rfl := hroot (by simp) hsubmission
  obtain rfl := hroot (by simp) hsubmissions
  exact ⟨bestImap, himap, hend⟩

end PimDiscovery
