import PimDiscovery.Rfc6186.Srv

/-! RFC 6186 mail discovery: the four SRV lookups of a domain. -/

namespace PimDiscovery
open Interaction
variable [DomainCrate] [IoHttpCrate]

abbrev DiscoverySrv := SrvSeries DiscoverySrvReport

namespace DiscoverySrv

def imap : SrvLookup DiscoverySrvReport := ⟨"_imap", fun report srv => { report with imap := srv }⟩
def imaps : SrvLookup DiscoverySrvReport := ⟨"_imaps", fun report srv => { report with imaps := srv }⟩
def submission : SrvLookup DiscoverySrvReport :=
  ⟨"_submission", fun report srv => { report with submission := srv }⟩
def submissions : SrvLookup DiscoverySrvReport :=
  ⟨"_submissions", fun report srv => { report with submissions := srv }⟩

def emptyReport : DiscoverySrvReport :=
  { imap := none, imaps := none, submission := none, submissions := none }

def new (domain : String) (resolver : Url) : DiscoverySrv :=
  SrvSeries.new imap [imaps, submission, submissions] (Text.trimMatches domain '.') resolver emptyReport

def resume : DiscoverySrv → Option Bytes →
    Step DiscoveryYield DiscoverySrv (Except (String × DnsLookupError) DiscoverySrvReport) :=
  SrvSeries.resume

def program (domain : String) (resolver : Url) :
    Protocol (Except (String × DnsLookupError) DiscoverySrvReport) :=
  SrvSeries.program (Text.trimMatches domain '.') resolver [imap, imaps, submission, submissions]
    emptyReport

def toProc (self : DiscoverySrv) :
    ProtocolRun (Except (String × DnsLookupError) DiscoverySrvReport) :=
  SrvSeries.toProc self

theorem refines : Refines resume toProc := SrvSeries.refines

theorem toProc_new (domain : String) (resolver : Url) (arg : Option Bytes) :
    (toProc (new domain resolver)).resume arg = drive exchanges (program domain resolver) :=
  SrvSeries.toProc_new ..

end DiscoverySrv
end PimDiscovery
