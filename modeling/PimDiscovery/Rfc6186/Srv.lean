import PimDiscovery.Shared.Dns
import PimDiscovery.Rfc6186.Service

/-! The SRV lookup, and the four lookups in series that RFC 6186 and RFC 6764 discovery make. -/

namespace PimDiscovery
open Interaction

/-- The order of `sort_by`: lowest priority first, then highest weight. -/
def Srv.precedes (a b : Srv) : Bool :=
  a.priority < b.priority || (a.priority == b.priority && b.weight ≤ a.weight)

def srvAnswers (items : List MessageItem) : List Srv :=
  items.filterMap fun item =>
    match item with
    | .answer { rdata := .srv srv, .. } => if srv.name.isRoot then none else some srv
    | _ => none

def readSrv (_ : String) (items : List MessageItem) : List Srv :=
  (srvAnswers items).mergeSort Srv.precedes

theorem Srv.precedes_trans (a b c : Srv) (h : a.precedes b = true) (h' : b.precedes c = true) :
    a.precedes c = true := by
  simp only [Srv.precedes, Bool.or_eq_true, Bool.and_eq_true, decide_eq_true_eq, beq_iff_eq,
    UInt16.lt_iff_toNat_lt, UInt16.le_iff_toNat_le, ← UInt16.toNat_inj] at h h' ⊢
  omega

theorem Srv.precedes_total (a b : Srv) : (a.precedes b || b.precedes a) = true := by
  simp only [Srv.precedes, Bool.or_eq_true, Bool.and_eq_true, decide_eq_true_eq, beq_iff_eq,
    UInt16.lt_iff_toNat_lt, UInt16.le_iff_toNat_le, ← UInt16.toNat_inj]
  omega

/-- A record no other one precedes strictly, or none when there are no records. -/
def Srv.IsBest (records : List Srv) : Option Srv → Prop
  | none => records = []
  | some best => best ∈ records ∧ ∀ srv ∈ records,
      best.priority < srv.priority ∨ (best.priority = srv.priority ∧ srv.weight ≤ best.weight)

theorem Srv.isBest_sorted (records : List Srv) :
    Srv.IsBest records (records.mergeSort Srv.precedes).head? := by
  have hsorted : (records.mergeSort Srv.precedes).Pairwise fun a b => a.precedes b = true :=
    List.pairwise_mergeSort Srv.precedes_trans Srv.precedes_total _
  have hmem : ∀ srv, srv ∈ records.mergeSort Srv.precedes ↔ srv ∈ records := fun _ =>
    List.mem_mergeSort
  cases h : records.mergeSort Srv.precedes with
  | nil =>
    rw [h] at hmem
    exact List.eq_nil_iff_forall_not_mem.mpr fun srv hs => by simpa using (hmem srv).mpr hs
  | cons best rest =>
    rw [h] at hmem hsorted
    refine ⟨(hmem best).mp (by simp), fun srv hs => ?_⟩
    rcases List.mem_cons.mp ((hmem srv).mpr hs) with rfl | hs
    · exact .inr ⟨rfl, UInt16.le_refl _⟩
    · simpa [Srv.precedes] using List.rel_of_pairwise_cons hsorted hs

section
variable [DomainCrate] [IoHttpCrate]

abbrev DiscoveryDnsSrv := DnsLookup

namespace DiscoveryDnsSrv

def new (qname : String) (resolver : Url) : DiscoveryDnsSrv := DnsLookup.new qname resolver

def resume : DiscoveryDnsSrv → Option Bytes →
    Step DiscoveryYield DiscoveryDnsSrv (Except DnsLookupError (List Srv)) :=
  DnsLookup.resume .srv readSrv

def program (qname : String) (resolver : Url) : Protocol (Except DnsLookupError (List Srv)) :=
  DnsLookup.program .srv readSrv qname resolver

def toProc (self : DiscoveryDnsSrv) : ProtocolRun (Except DnsLookupError (List Srv)) :=
  DnsLookup.toProc .srv readSrv self

theorem refines : Refines resume toProc := DnsLookup.refines .srv readSrv

theorem toProc_new (qname : String) (resolver : Url) (arg : Option Bytes) :
    (toProc (new qname resolver)).resume arg = drive exchanges (program qname resolver) := rfl

end DiscoveryDnsSrv

def intoService (record : Srv) : DiscoverySrvService where
  host := Text.trimEndMatches record.name.text '.'
  port := record.port
  priority := record.priority
  weight := record.weight

structure SrvLookup (ρ : Type) where
  label : String
  set : ρ → Option DiscoverySrvService → ρ

def SrvLookup.qname {ρ : Type} (self : SrvLookup ρ) (domain : String) : String :=
  self.label ++ "._tcp." ++ domain

/-- The state of `DiscoverySrv` and `DiscoveryWebdavSrv`: the lookup under way, `none` at the end,
and those left. -/
structure SrvSeries (ρ : Type) where
  state : Option (SrvLookup ρ × DiscoveryDnsSrv)
  left : List (SrvLookup ρ)
  domain : String
  resolver : Url
  report : ρ

namespace SrvSeries
variable {ρ : Type}

def new (first : SrvLookup ρ) (left : List (SrvLookup ρ)) (domain : String) (resolver : Url)
    (report : ρ) : SrvSeries ρ :=
  { state := some (first, DiscoveryDnsSrv.new (first.qname domain) resolver)
    left, domain, resolver, report }

def resume (self : SrvSeries ρ) (arg : Option Bytes) :
    Step DiscoveryYield (SrvSeries ρ) (Except (String × DnsLookupError) ρ) :=
  match self.state with
  | some (lookup, srv) =>
    match DiscoveryDnsSrv.resume srv arg with
    | .complete (.ok records) =>
      let report := lookup.set self.report (records.head?.map intoService)
      -- The next lookup starts within the same resume.
      match _hleft : self.left with
      | [] => .complete (.ok report)
      | next :: left => resume (new next left self.domain self.resolver report) none
    | .yielded y srv => .yielded y { self with state := some (lookup, srv) }
    | .complete (.error err) => .complete (.error (lookup.label, err))
    | .panicked => .panicked
  | none => .panicked
termination_by self.left.length
decreasing_by simp_all [new]

/-- What follows the lookup that ended with `result`, with `rest` for the lookups left. -/
def continueWith (lookup : SrvLookup ρ) (report : ρ)
    (rest : ρ → Protocol (Except (String × DnsLookupError) ρ)) :
    Except DnsLookupError (List Srv) → Protocol (Except (String × DnsLookupError) ρ)
  | .ok records => rest (lookup.set report (records.head?.map intoService))
  | .error err => .pure (.error (lookup.label, err))

def program (domain : String) (resolver : Url) :
    List (SrvLookup ρ) → ρ → Protocol (Except (String × DnsLookupError) ρ)
  | [], report => .pure (.ok report)
  | lookup :: left, report =>
    DiscoveryDnsSrv.program (lookup.qname domain) resolver >>=
      continueWith lookup report (program domain resolver left)

def toProc (self : SrvSeries ρ) : ProtocolRun (Except (String × DnsLookupError) ρ) :=
  match self.state with
  | some (lookup, srv) =>
    (DiscoveryDnsSrv.toProc srv).andThen
      (continueWith lookup self.report (program self.domain self.resolver self.left))
  | none => .dead

theorem toProc_new (first : SrvLookup ρ) (left : List (SrvLookup ρ)) (domain : String)
    (resolver : Url) (report : ρ) (arg : Option Bytes) :
    (toProc (new first left domain resolver report)).resume arg =
      drive exchanges (program domain resolver (first :: left) report) := by
  unfold toProc new
  simp only [Proc.resume_andThen, DiscoveryDnsSrv.toProc_new, program, drive_bind]

theorem refines : Refines (resume (ρ := ρ)) toProc := by
  intro self arg
  induction hn : self.left.length using Nat.strongRecOn generalizing self arg with
  | ind n ih =>
    unfold resume
    rw [toProc]
    cases hs : self.state with
    | none => rfl
    | some current =>
      obtain ⟨lookup, srv⟩ := current
      simp only [Proc.resume_andThen, ← DiscoveryDnsSrv.refines srv arg]
      cases DiscoveryDnsSrv.resume srv arg with
      | yielded y srv => rfl
      | panicked => rfl
      | complete result =>
        cases result with
        | error err => rfl
        | ok records =>
          simp only [Step.mapState_complete, Step.andThen, continueWith]
          cases hleft : self.left with
          | nil => rfl
          | cons next left =>
            simp only
            rw [ih left.length (by simp [← hn, hleft]) _ _ rfl]
            exact toProc_new ..

omit [IoHttpCrate] in
theorem always {asks : Exchange → Prop} {allowed : ∀ q : Exchange, q.Answer → Prop}
    {domain : String} {resolver : Url} (left : List (SrvLookup ρ)) (h : AsksDns asks .srv resolver)
    (report : ρ) :
    (program domain resolver left report).Always asks allowed fun _ => True := by
  induction left generalizing report with
  | nil => trivial
  | cons lookup left ih =>
    refine (DnsLookup.always .srv readSrv h).bind fun result _ => ?_
    cases result with
    | error err => trivial
    | ok records => exact ih _

omit [IoHttpCrate] in
theorem eval_program_lookup (o : Network) (domain : String) (resolver : Url) (lookup : SrvLookup ρ)
    (left : List (SrvLookup ρ)) (report : ρ) :
    (program domain resolver (lookup :: left) report).eval o =
      (continueWith lookup report (program domain resolver left)
        (o.lookup .srv readSrv (lookup.qname domain) resolver)).eval o := by
  rw [program, Prog.eval_bind, DiscoveryDnsSrv.program, DnsLookup.eval_program]

end SrvSeries
end

section
variable [DomainCrate]

def Network.srvAnswers (o : Network) (qname : String) (resolver : Url) :
    Except DnsLookupError (List Srv) :=
  o.lookup .srv (fun _ items => PimDiscovery.srvAnswers items) qname resolver

def Network.BestSrv (o : Network) (qname : String) (resolver : Url) (best : Option Srv) : Prop :=
  ∃ answers, o.srvAnswers qname resolver = .ok answers ∧ Srv.IsBest answers best

theorem Network.lookup_srv (o : Network) (qname : String) (resolver : Url) :
    o.lookup .srv readSrv qname resolver =
      (o.srvAnswers qname resolver).map (·.mergeSort Srv.precedes) :=
  o.lookup_map .srv _ (fun answers : List Srv => answers.mergeSort Srv.precedes) qname resolver

end

section
variable [UrlCrate]

def parseOrigin (scheme host : String) (port : UInt16) : Except (String × String) Url :=
  let raw := scheme ++ "://" ++ host ++ ":" ++ toString port.toNat ++ "/"
  match UrlCrate.parse raw with
  | .ok url => .ok url
  | .error err => .error (raw, err)

end
end PimDiscovery
